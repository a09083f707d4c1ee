import Optee.TeeResult

/-! Read-write paged fobjs: their pages are saved to and loaded from secure DDR under one key drawn at boot. -/

namespace Optee.Pager

abbrev Nonce := UInt32 × UInt32 × UInt32

structure AesGcm (Page Cipher Tag : Type) where
  enc : Nonce → Page → Cipher × Tag
  dec : Nonce → Cipher → Tag → Option Page

structure Config (Page Cipher Tag : Type) where
  pageTagAndIv : Bool
  rwpStateBase : ℕ
  rwpStoreBase : ℕ
  gcm : AesGcm Page Cipher Tag
  zeroPage : Page
  zeroTag : Tag

structure RwpState (Tag : Type) where
  iv : UInt64
  tag : Tag

/-- Where the page states are: in the pageable array of all states, or in heap memory of their own. -/
inductive RwpIv
  | paged (idx : ℕ)
  | unpaged (store state : ℕ)

structure Fobj where
  iv : RwpIv
  numPages : ℕ
  refc : ℕ

structure World (Cipher Tag : Type) where
  states : ℕ → RwpState Tag
  store : ℕ → Cipher
  /-- A freed fobj leaves its place empty. -/
  fobjs : List (Option Fobj)
  /-- The nonces given to `internal_aes_gcm_enc`, the last one first. -/
  nonces : List Nonce

structure Memory where
  idx : ℕ
  store : ℕ
  state : ℕ

variable {Page Cipher Tag : Type} (cfg : Config Page Cipher Tag)

def smallPageSize : ℕ := 4096
def sizeofRwpState : ℕ := 24
def sizeofRwpStatePadded : ℕ := 32

def Fobj.stateAt (f : Fobj) (page : ℕ) : ℕ :=
  match f.iv with
  | .paged idx => cfg.rwpStateBase + (idx + page) * sizeofRwpStatePadded
  | .unpaged _ state => state + page * sizeofRwpState

def Fobj.storeAt (f : Fobj) (page : ℕ) : ℕ :=
  match f.iv with
  | .paged idx => cfg.rwpStoreBase + idx * smallPageSize + page * smallPageSize
  | .unpaged store _ => store + page * smallPageSize

def gcmIv (state : ℕ) (iv : UInt64) : Nonce := (UInt32.ofNat state, (iv >>> 32).toUInt32, iv.toUInt32)

def rwpLoadPage (w : World Cipher Tag) (state src : ℕ) : TeeResult Page :=
  if (w.states state).iv = 0 then .ok cfg.zeroPage
  else orError .macInvalid (cfg.gcm.dec (gcmIv state (w.states state).iv) (w.store src) (w.states state).tag)

def rwpSavePage (w : World Cipher Tag) (va : Page) (state dst : ℕ) : TeeResult (World Cipher Tag) := do
  assert ((w.states state).iv + 1 > (w.states state).iv)
  let iv := (w.states state).iv + 1
  let (cipher, tag) := cfg.gcm.enc (gcmIv state iv) va
  .ok
    { w with
      states := fun a => if a = state then ⟨iv, tag⟩ else w.states a
      store := fun a => if a = dst then cipher else w.store a
      nonces := gcmIv state iv :: w.nonces }

def loadPage (w : World Cipher Tag) (f : Fobj) (page : ℕ) : TeeResult Page := do
  assert (f.refc ≠ 0)
  assert (page < f.numPages)
  rwpLoadPage cfg w (f.stateAt cfg page) (f.storeAt cfg page)

def savePage (w : World Cipher Tag) (f : Fobj) (page : ℕ) (va : Page) : TeeResult (World Cipher Tag) := do
  assert (page < f.numPages)
  -- a fobj that is being torn down has not been taken from the pager yet
  if f.refc = 0 then .ok w else rwpSavePage cfg w va (f.stateAt cfg page) (f.storeAt cfg page)

variable {w' w : World Cipher Tag}

def addFobj (w : World Cipher Tag) (f : Fobj) : World Cipher Tag :=
  { w with
    states := fun a => if ∃ page < f.numPages, a = f.stateAt cfg page then ⟨0, cfg.zeroTag⟩ else w.states a
    fobjs := w.fobjs ++ [some f] }

def rwpPagedIvAlloc (w : World Cipher Tag) (numPages : ℕ) (mem : Memory) : World Cipher Tag :=
  addFobj cfg w ⟨.paged mem.idx, numPages, 1⟩

def rwpUnpagedIvAlloc (w : World Cipher Tag) (numPages : ℕ) (mem : Memory) : World Cipher Tag :=
  addFobj cfg w ⟨.unpaged mem.store mem.state, numPages, 1⟩

def fobjRwPagedAlloc (w : World Cipher Tag) (numPages : ℕ) (mem : Memory) : TeeResult (World Cipher Tag) := do
  assert (numPages ≠ 0)
  .ok (if cfg.pageTagAndIv then rwpPagedIvAlloc cfg w numPages mem else rwpUnpagedIvAlloc cfg w numPages mem)

def rwpInit (w : World Cipher Tag) (numFobjPages : ℕ) (mem : Memory) : World Cipher Tag :=
  if cfg.pageTagAndIv then rwpUnpagedIvAlloc cfg w numFobjPages mem else w

def fobjGet (f : Fobj) : TeeResult Fobj := do
  assert (f.refc ≠ 0)
  .ok { f with refc := f.refc + 1 }

def fobjPut (f : Fobj) : TeeResult Fobj := do
  assert (f.refc ≠ 0)
  .ok { f with refc := f.refc - 1 }

def fobjFree (f : Fobj) : TeeResult Unit := do
  match f.iv with
  | .paged _ => .ok ()
  | .unpaged _ _ => assert (cfg.pageTagAndIv = false)
  assert (f.refc = 0)

inductive Op (Page : Type)
  | get
  | put
  | free
  | load (page : ℕ)
  | save (page : ℕ) (va : Page)

inductive Event (Page : Type)
  | alloc (numPages : ℕ) (mem : Memory)
  | use (i : ℕ) (op : Op Page)

def setFobj (w : World Cipher Tag) (i : ℕ) (f : Option Fobj) : World Cipher Tag := { w with fobjs := w.fobjs.set i f }

def useFobj (w : World Cipher Tag) (i : ℕ) (f : Fobj) : Op Page → TeeResult (World Cipher Tag)
  | .get => do .ok (setFobj w i (some (← fobjGet f)))
  | .put => do .ok (setFobj w i (some (← fobjPut f)))
  | .free => do
    fobjFree cfg f
    .ok (setFobj w i none)
  | .load page =>
    match loadPage cfg w f page with
    | .error .panic => .error .panic
    | _ => .ok w
  | .save page va => savePage cfg w f page va

def step (w : World Cipher Tag) : Event Page → TeeResult (World Cipher Tag)
  | .alloc numPages mem => fobjRwPagedAlloc cfg w numPages mem
  | .use i op =>
    match w.fobjs[i]? with
    | some (some f) => useFobj cfg w i f op
    | _ => .ok w

end Optee.Pager
