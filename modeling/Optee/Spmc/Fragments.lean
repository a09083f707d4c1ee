import Mathlib.Data.List.GetD
import Optee.Lib.Threads
import Optee.Spmc.MemShare

/-! Memory that is shared in fragments compared with memory that is shared in one call. -/

namespace Optee.Spmc

open List

variable {cfg : Config} {c : ℕ}

section Reading

variable {buf buf' : Buffer} {a b n : ℕ}

def Holds (buf : Buffer) (off : ℕ) (desc : Buffer) (start len : ℕ) : Prop :=
  ∀ j, j < len → buf (off + j) = desc (start + j)

lemma Holds.sub (h : Holds buf a buf' b n) {m : ℕ} (hm : c + m ≤ n) : Holds buf (a + c) buf' (b + c) m := by
  intro j hj
  rw [add_assoc, add_assoc]
  exact h (c + j) (by omega)

lemma readLe_congr (h : Holds buf a buf' b n) : readLe buf a n = readLe buf' b n := by
  induction n generalizing a b with
  | zero => rfl
  | succ n ih =>
    have hhead : buf a = buf' b := h 0 (Nat.succ_pos n)
    have htail : readLe buf (a + 1) n = readLe buf' (b + 1) n := ih (h.sub (by omega))
    rw [readLe, readLe, hhead, htail]

lemma Holds.read (h : Holds buf a buf' b n) (c m : ℕ) (hm : c + m ≤ n) : readLe buf (a + c) m = readLe buf' (b + c) m :=
  readLe_congr (h.sub hm)

lemma getAccPerms_congr {m : ℕ} (h : Holds buf a buf' b (16 * m)) :
    getAccPerms cfg buf a m = getAccPerms cfg buf' b m := by
  induction m generalizing a b with
  | zero => rfl
  | succ m ih =>
    have hid : readLe buf a 2 = readLe buf' b 2 := h.read 0 2 (by omega)
    have hperm : readLe buf (a + 2) 1 = readLe buf' (b + 2) 1 := h.read 2 1 (by omega)
    have hoffs : readLe buf (a + 4) 4 = readLe buf' (b + 4) 4 := h.read 4 4 (by omega)
    have htail : getAccPerms cfg buf (a + 16) m = getAccPerms cfg buf' (b + 16) m := ih (h.sub (by omega))
    rw [getAccPerms, getAccPerms, hid, hperm, hoffs, htail]

end Reading

def rangesAt (desc : Buffer) : ℕ → ℕ → List (ℕ × ℕ)
  | _, 0 => []
  | off, n + 1 => (readLe desc off 8, readLe desc (off + 8) 4) :: rangesAt desc (off + 16) n

def pagesOf (ranges : List (ℕ × ℕ)) : List ℕ :=
  ranges.flatMap fun r => (List.range r.2).map fun i => r.1 + i * smallPageSize

def Header.length (h : Header) : ℕ := h.addrRangeOffs + 16 * h.regionCount

structure WellFormed (cfg : Config) (desc : Buffer) (h : Header) : Prop where
  parsed : memShareInit cfg 0 desc 0 h.length = .ok h
  accesses : 32 + 16 * readLe desc 28 4 ≤ h.addrRangeOffs
  nonSec : ∀ r ∈ rangesAt desc h.addrRangeOffs h.regionCount, cfg.nonSec r.1 (r.2 * smallPageSize) = true
  pages : (pagesOf (rangesAt desc h.addrRangeOffs h.regionCount)).length = h.pageCount
  pageCount_pos : 0 < h.pageCount
  pageCount_lt : h.pageCount * smallPageSize < 2 ^ 32
  length_lt : h.length < 2 ^ 31

section Header

variable {desc buf : Buffer} {h : Header} {addr off blen flen : ℕ}

lemma memShareInit_first (hinit : memShareInit cfg 0 desc 0 blen = .ok h)
    (haccs : 32 + 16 * readLe desc 28 4 ≤ h.addrRangeOffs) (hlen : h.addrRangeOffs ≤ flen)
    (halign : (addr + off) % 8 = 0) (hholds : Holds buf off desc 0 flen) :
    memShareInit cfg addr buf off flen = .ok h := by
  have hcount : readLe buf (off + 28) 4 = readLe desc (0 + 28) 4 := hholds.read 28 4 (by omega)
  have hattr : readLe buf (off + 2) 1 = readLe desc (0 + 2) 1 := hholds.read 2 1 (by omega)
  have haccess : getAccPerms cfg buf (off + 32) (readLe desc (0 + 28) 4) =
      getAccPerms cfg desc (0 + 32) (readLe desc (0 + 28) 4) :=
    getAccPerms_congr (hholds.sub (by rw [zero_add]; omega))
  rw [memShareInit] at hinit ⊢
  dsimp only at hinit ⊢
  rw [hcount, hattr, haccess]
  split_ifs at hinit
  next hattr' =>
  split at hinit
  · cases hinit
  next perm regionOffs hperms =>
  split at hinit
  · cases hinit
  next hperm =>
  split_ifs at hinit
  cases hinit
  dsimp only at haccs hlen
  have hpages : readLe buf (off + regionOffs) 4 = readLe desc (0 + regionOffs) 4 := hholds.read regionOffs 4 (by omega)
  have hregions : readLe buf (off + regionOffs + 4) 4 = readLe desc (0 + regionOffs + 4) 4 :=
    hholds.read (regionOffs + 4) 4 (by omega)
  rw [if_neg (by omega), if_neg (by rw [zero_add]; omega), if_neg hattr', if_neg hperm, if_neg (by omega),
    if_neg (by omega), hpages, hregions]

end Header

section Ranges

variable {desc buf : Buffer} {i n m k : ℕ} {l : List ℕ}

def obj (i n : ℕ) (l : List ℕ) : Mobj := ⟨i, n, fun j => l.getD j 0⟩

lemma obj_pageCount (hn : n * smallPageSize < 2 ^ 32) : (obj i n l).pageCount = n := by
  show n * smallPageSize % 2 ^ 32 / smallPageSize = n
  rw [Nat.mod_eq_of_lt hn, Nat.mul_div_cancel _ (by decide)]

lemma rangesAt_congr {a b : ℕ} (h : Holds buf a desc b (16 * m)) : rangesAt buf a m = rangesAt desc b m := by
  induction m generalizing a b with
  | zero => rfl
  | succ m ih =>
    have haddr : readLe buf a 8 = readLe desc b 8 := h.read 0 8 (by omega)
    have hcount : readLe buf (a + 8) 4 = readLe desc (b + 8) 4 := h.read 8 4 (by omega)
    have htail : rangesAt buf (a + 16) m = rangesAt desc (b + 16) m := ih (h.sub (by omega))
    rw [rangesAt, rangesAt, haddr, hcount, htail]

lemma rangesAt_add (desc : Buffer) (off m k : ℕ) :
    rangesAt desc off (m + k) = rangesAt desc off m ++ rangesAt desc (off + 16 * m) k := by
  induction m generalizing off with
  | zero => rw [zero_add]; rfl
  | succ m ih =>
    have hoff : off + 16 * (m + 1) = off + 16 + 16 * m := by omega
    rw [Nat.succ_add, rangesAt, ih, hoff]
    rfl

lemma pagesOf_append (rs ss : List (ℕ × ℕ)) : pagesOf (rs ++ ss) = pagesOf rs ++ pagesOf ss := flatMap_append

lemma pagesOf_cons (r : ℕ × ℕ) (rs : List (ℕ × ℕ)) : pagesOf (r :: rs) = pagesOf [r] ++ pagesOf rs :=
  pagesOf_append [r] rs

lemma pagesOf_single (r : ℕ × ℕ) : pagesOf [r] = (List.range r.2).map fun i => r.1 + i * smallPageSize :=
  append_nil _

lemma addPagesAt_spec {r : ℕ × ℕ} (hn : n * smallPageSize < 2 ^ 32) (hfit : l.length + r.2 ≤ n)
    (hsec : cfg.nonSec r.1 (r.2 * smallPageSize) = true) :
    addPagesAt cfg (obj i n l) l.length r.1 r.2 = some (obj i n (l ++ pagesOf [r])) := by
  have hn' : n < 2 ^ 20 := by
    simp only [smallPageSize] at hn
    omega
  have hsize : r.2 * smallPageSize % 2 ^ 32 = r.2 * smallPageSize :=
    Nat.mod_eq_of_lt (Nat.lt_of_le_of_lt (Nat.mul_le_mul_right _ (by omega)) hn)
  rw [addPagesAt, obj_pageCount hn, if_neg (by omega), hsize, hsec]
  refine congrArg (fun f => some (Mobj.mk i n f)) (funext fun j => ?_)
  rw [pagesOf_single]
  show (if _ then _ else l.getD j 0) = _
  by_cases hj : l.length ≤ j
  · rw [getD_append_right _ _ _ _ hj]
    split
    · simp [getD_eq_getElem?_getD, show j - l.length < r.2 by omega]
    · simp [getD_eq_getElem?_getD, show ¬j - l.length < r.2 by omega, show l.length ≤ j from hj]
  · rw [if_neg (fun h => hj h.1), getD_append _ _ _ _ (by omega)]

def share (i n : ℕ) (l : List ℕ) (regionCount : ℕ) : Share := ⟨obj i n l, n, regionCount, l.length⟩

lemma share_new : (⟨obj i n [], n, k, 0⟩ : Share) = share i n [] k := rfl

lemma share_regionCount : (share i n l k).regionCount = k := rfl

lemma addRanges_spec (hn : n * smallPageSize < 2 ^ 32) {off : ℕ}
    (hfit : (l ++ pagesOf (rangesAt buf off m)).length ≤ n)
    (hsec : ∀ r ∈ rangesAt buf off m, cfg.nonSec r.1 (r.2 * smallPageSize) = true) :
    addRanges cfg buf off m (share i n l k) = some (share i n (l ++ pagesOf (rangesAt buf off m)) k) := by
  induction m generalizing off l with
  | zero => rw [rangesAt, pagesOf, flatMap_nil, append_nil]; rfl
  | succ m ih =>
    rw [rangesAt, pagesOf_cons, ← append_assoc] at hfit ⊢
    rw [rangesAt, forall_mem_cons] at hsec
    have hlength : (l ++ pagesOf [(readLe buf off 8, readLe buf (off + 8) 4)]).length = l.length + readLe buf (off + 8) 4 := by
      rw [length_append, pagesOf_single, length_map, length_range]
    have hpages : addPagesAt cfg (obj i n l) l.length (readLe buf off 8) (readLe buf (off + 8) 4) = some _ :=
      addPagesAt_spec hn
        (by rw [length_append] at hfit; omega) hsec.1
    have hrest := ih hfit hsec.2
    rw [share, hlength] at hrest
    rw [addRanges, share]
    rw [hpages]
    exact hrest

lemma toInt_eq (h : n < 2 ^ 31) : toInt n = n := by
  show Int.bmod n 4294967296 = n
  rw [Int.bmod_def]
  omega

structure Piece (cfg : Config) (n : ℕ) (l : List ℕ) (addr : ℕ) (buf : Buffer) (off m k : ℕ) : Prop where
  numPages : n * smallPageSize < 2 ^ 32
  align : (addr + off) % 8 = 0
  le : m ≤ k
  lt : 16 * m < 2 ^ 31
  fit : (l ++ pagesOf (rangesAt buf off m)).length ≤ n
  nonSec : ∀ r ∈ rangesAt buf off m, cfg.nonSec r.1 (r.2 * smallPageSize) = true
  done : m = k → (l ++ pagesOf (rangesAt buf off m)).length = n

lemma addMemShareHelper_spec {addr off : ℕ} (h : Piece cfg n l addr buf off m k) :
    addMemShareHelper cfg (share i n l k) addr buf off (16 * m) =
      (share i n (l ++ pagesOf (rangesAt buf off m)) (k - m), ((if m = k then 0 else 16 * m : ℕ) : ℤ)) := by
  have hle := h.le
  have hlt := h.lt
  have hcount : min (16 * m / 16 % 2 ^ 32) (share i n l k).regionCount = m := by
    show min (16 * m / 16 % 2 ^ 32) k = m
    omega
  rw [addMemShareHelper, hcount, if_neg (fun h' => h' h.align), addRanges_spec h.numPages h.fit h.nonSec]
  show (if k - m ≠ 0 then (share i n _ (k - m), _) else _) = _
  split
  · next hleft => rw [if_neg (by omega), mul_comm m, toInt_eq h.lt]
  · have hmk : m = k := by omega
    rw [if_pos hmk, if_neg (fun h' => h' (h.done hmk))]
    rfl

variable {w : World} {mm : Option Mm} {addr off fragOffset : ℕ} {rest : List Frag}

lemma addMemShareFrag_more (h : Piece cfg n l addr buf off m k) (hm : m ≠ k) (hoffset : fragOffset + 16 * m < 2 ^ 31)
    (hw : w.fragStateHead = ⟨share i n l k, mm, fragOffset⟩ :: rest) :
    addMemShareFrag cfg w 0 ⟨share i n l k, mm, fragOffset⟩ addr buf off (16 * m) =
      ({ w with
        fragStateHead := ⟨share i n (l ++ pagesOf (rangesAt buf off m)) (k - m), mm, fragOffset + 16 * m⟩ :: rest },
        ((fragOffset + 16 * m : ℕ) : ℤ)) := by
  have hle := h.le
  rw [addMemShareFrag, addMemShareHelper_spec h, if_neg hm]
  dsimp only
  rw [if_neg (by omega), if_neg (by omega), share_regionCount, if_pos (by omega), hw, Int.toNat_natCast,
    toInt_eq hoffset]
  rfl

lemma addMemShareFrag_last (h : Piece cfg n l addr buf off m k) (hm : m = k) (hoffset : fragOffset < 2 ^ 31)
    (hw : w.fragStateHead = ⟨share i n l k, mm, fragOffset⟩ :: rest) :
    addMemShareFrag cfg w 0 ⟨share i n l k, mm, fragOffset⟩ addr buf off (16 * m) =
      ({ w with
        fragStateHead := rest
        shmInactiveHead := obj i n (l ++ pagesOf (rangesAt buf off m)) :: w.shmInactiveHead }, (fragOffset : ℤ)) := by
  rw [addMemShareFrag, addMemShareHelper_spec h, if_pos hm]
  dsimp only
  rw [if_neg (by omega), share_regionCount, if_neg (by omega), endFrag, hw, Int.toNat_natCast,
    add_zero, toInt_eq hoffset, if_neg (by omega)]
  rfl

lemma WellFormed.piece {h : Header} (hwf : WellFormed cfg desc h) (hc : c + m ≤ h.regionCount)
    (halign : (addr + off) % 8 = 0) (hholds : Holds buf off desc (h.addrRangeOffs + 16 * c) (16 * m)) :
    Piece cfg h.pageCount (pagesOf (rangesAt desc h.addrRangeOffs c)) addr buf off m (h.regionCount - c) ∧
      pagesOf (rangesAt desc h.addrRangeOffs c) ++ pagesOf (rangesAt buf off m) =
        pagesOf (rangesAt desc h.addrRangeOffs (c + m)) := by
  have hpages : pagesOf (rangesAt desc h.addrRangeOffs c) ++ pagesOf (rangesAt buf off m) =
      pagesOf (rangesAt desc h.addrRangeOffs (c + m)) := by
    rw [rangesAt_congr hholds, rangesAt_add, pagesOf_append]
  have hsplit : rangesAt desc h.addrRangeOffs h.regionCount = rangesAt desc h.addrRangeOffs (c + m) ++
      rangesAt desc (h.addrRangeOffs + 16 * (c + m)) (h.regionCount - (c + m)) := by
    rw [← rangesAt_add, Nat.add_sub_cancel' hc]
  have htotal := hwf.pages
  have hlength := hwf.length_lt
  rw [Header.length] at hlength
  refine ⟨⟨hwf.pageCount_lt, halign, by omega, by omega, ?_, ?_, ?_⟩, hpages⟩
  · rw [hsplit, pagesOf_append, length_append] at htotal
    rw [hpages]
    omega
  · intro r hr
    refine hwf.nonSec r ?_
    rw [hsplit, rangesAt_add]
    rw [rangesAt_congr hholds] at hr
    exact mem_append_left _ (mem_append_right _ hr)
  · intro hm
    rw [hpages, ← htotal, hm, Nat.add_sub_cancel' (by omega)]

end Ranges

section Sending

inductive Place
  | rx
  | tmem (pbuf pageCount page : ℕ)

def Place.offs : Place → ℕ
  | .rx => 0
  | .tmem pbuf _ _ => pbuf % smallPageSize

def Place.addr (cfg : Config) : Place → ℕ
  | .rx => cfg.rx.getD 0
  | .tmem _ _ page => page * smallPageSize

def Place.mm : Place → Option Mm
  | .rx => none
  | .tmem _ pageCount page => some ⟨page, pageCount * smallPageSize⟩

def Place.enter (w : World) : Place → World
  | .rx => w
  | .tmem _ pageCount page => mapPages { w with mms := ⟨page, pageCount * smallPageSize⟩ :: w.mms } page pageCount

def Place.args (blen flen : ℕ) : Place → Args
  | .rx => ⟨blen, flen, 0, 0, 0, 0, 0⟩
  | .tmem pbuf pageCount _ => ⟨blen, flen, pbuf, pageCount, 0, 0, 0⟩

structure Sending where
  desc : Buffer
  header : Header
  first : ℕ
  following : List (Buffer × ℕ)
  place : Place

namespace Sending

def firstLength (t : Sending) : ℕ := t.header.addrRangeOffs + 16 * t.first

end Sending

def HoldsAll (off : ℕ) (desc : Buffer) : ℕ → List (Buffer × ℕ) → Prop
  | _, [] => True
  | start, f :: fs => Holds f.1 off desc start (16 * f.2) ∧ HoldsAll off desc (start + 16 * f.2) fs

def Place.Ready (cfg : Config) (w : World) (env : Env) (t : Sending) : Place → Prop
  | .rx => (∃ addr, cfg.rx = some addr ∧ addr % 8 = 0) ∧ t.firstLength ≤ cfg.rxSize ∧
    ∀ f ∈ t.following, 16 * f.2 ≤ cfg.rxSize
  | .tmem pbuf pageCount page => pbuf ≠ 0 ∧ pbuf % 8 = 0 ∧ pageCount < 2 ^ 32 ∧
    cfg.nonSec pbuf (pageCount * smallPageSize) = true ∧
    pbuf % smallPageSize + t.header.length ≤ pageCount * smallPageSize ∧ env.mm = some page ∧ env.mapping = true ∧
    ∀ v, page ≤ v → v < page + pageCount → w.mapped v = false

structure Valid (cfg : Config) (w : World) (env : Env) (t : Sending) (i : ℕ) : Prop where
  wf : WellFormed cfg t.desc t.header
  sum : t.first + (t.following.map (·.2)).sum = t.header.regionCount
  pos : ∀ f ∈ t.following, 0 < f.2
  holds : Holds env.buf t.place.offs t.desc 0 t.firstLength
  holdsAll : HoldsAll t.place.offs t.desc t.firstLength t.following
  ready : t.place.Ready cfg w env t
  objMemory : env.objMemory = true
  fragMemory : env.fragMemory = true
  bit : w.shmBits.findIdx? (!·) = some i

variable (cfg)

def fragCalls (env : Env) (handle : ℕ) : World → List (Buffer × ℕ) → World × List Answer
  | w, [] => (w, [])
  | w, f :: fs =>
    match handleMemFragTx cfg w { env with buf := f.1 } handle (16 * f.2) with
    | (w, a) =>
      match fragCalls env handle w fs with
      | (w, as) => (w, a :: as)

def Sending.run (t : Sending) (w : World) (env : Env) (i : ℕ) : World × List Answer :=
  match handleMemShare cfg w env (t.place.args t.header.length t.firstLength) with
  | (w, a) =>
    match fragCalls cfg env (2 ^ 44 + i) w t.following with
    | (w, as) => (w, a :: as)

def Sending.object (t : Sending) (i : ℕ) : Mobj :=
  obj i t.header.pageCount (pagesOf (rangesAt t.desc t.header.addrRangeOffs t.header.regionCount))

def claimedAnswers (handle : ℕ) : ℕ → List ℕ → List Answer
  | _, [] => [.success 0 handle]
  | consumed, k :: ks => .fragRx handle consumed :: claimedAnswers handle (consumed + 16 * k) ks

def Sending.AsClaimed (t : Sending) (w : World) (env : Env) (i : ℕ) : Prop :=
  t.run cfg w env i =
    ({ w with shmBits := w.shmBits.set i true, shmInactiveHead := t.object i :: w.shmInactiveHead },
      claimedAnswers (2 ^ 44 + i) t.firstLength (t.following.map (·.2)))

def fragAnswers (handle : ℕ) : ℕ → List ℕ → List Answer
  | _, [] => []
  | consumed, [_] => [.fragRx handle consumed]
  | consumed, k :: ks => .fragRx handle ((consumed + 16 * k : ℕ) : ℤ) :: fragAnswers handle (consumed + 16 * k) ks

end Sending

section Run

variable {w : World} {env : Env} {t : Sending} {i : ℕ}

lemma mobjNew_spec (h : Valid cfg w env t i) (w' : World) (hbits : w'.shmBits = w.shmBits) :
    mobjNew w' env t.header.pageCount =
      some ({ w' with shmBits := w.shmBits.set i true }, obj i t.header.pageCount []) := by
  have hpos := h.wf.pageCount_pos
  rw [mobjNew, h.objMemory, if_neg (by simp; omega), hbits, h.bit]
  rfl

lemma memShareInit_align {addr off blen : ℕ} {buf : Buffer} {hd : Header}
    (hinit : memShareInit cfg addr buf off blen = .ok hd) : (addr + off + hd.addrRangeOffs) % 8 = 0 := by
  rw [memShareInit] at hinit
  dsimp only at hinit
  split at hinit
  · cases hinit
  split at hinit
  · cases hinit
  split at hinit
  · cases hinit
  split at hinit
  · cases hinit
  split at hinit
  · cases hinit
  split at hinit
  · cases hinit
  split at hinit
  · cases hinit
  cases hinit
  dsimp only
  omega

section

variable (h : Valid cfg w env t i)
include h

lemma Valid.align : (t.place.addr cfg + t.place.offs) % 8 = 0 := by
  have hready := h.ready
  cases hplace : t.place with
  | rx =>
    rw [hplace] at hready
    obtain ⟨⟨addr, haddr, halign⟩, -⟩ := hready
    rw [Place.addr, haddr]
    exact halign
  | tmem pbuf pageCount page =>
    rw [hplace] at hready
    obtain ⟨-, halign, -⟩ := hready
    show (page * smallPageSize + pbuf % smallPageSize) % 8 = 0
    simp only [smallPageSize]
    omega

lemma Valid.init :
    memShareInit cfg (t.place.addr cfg) env.buf t.place.offs t.firstLength = .ok t.header :=
  memShareInit_first h.wf.parsed h.wf.accesses (Nat.le_add_right _ _) h.align h.holds

lemma Valid.firstPiece :
    Piece cfg t.header.pageCount [] (t.place.addr cfg) env.buf (t.place.offs + t.header.addrRangeOffs) t.first
        t.header.regionCount ∧
      [] ++ pagesOf (rangesAt env.buf (t.place.offs + t.header.addrRangeOffs) t.first) =
        pagesOf (rangesAt t.desc t.header.addrRangeOffs t.first) := by
  have hsum := h.sum
  have hholds : Holds env.buf (t.place.offs + t.header.addrRangeOffs) t.desc (t.header.addrRangeOffs + 16 * 0)
      (16 * t.first) := by
    have := h.holds.sub (Nat.le_refl _)
    rwa [zero_add] at this
  have halign : (t.place.addr cfg + (t.place.offs + t.header.addrRangeOffs)) % 8 = 0 := by
    rw [← add_assoc]
    exact memShareInit_align h.init
  have hpiece := h.wf.piece (by omega) halign hholds
  rwa [zero_add] at hpiece

lemma addMemShare_whole (hwhole : t.following = []) (w' : World)
    (hbits : w'.shmBits = w.shmBits) :
    addMemShare cfg w' env t.place.mm (t.place.addr cfg) t.place.offs t.header.length t.firstLength =
      ({ w' with shmBits := w.shmBits.set i true, shmInactiveHead := t.object i :: w'.shmInactiveHead }, 0, 2 ^ 44 + i) := by
  have hsum := h.sum
  rw [hwhole, map_nil, sum_nil, add_zero] at hsum
  have hlength : t.firstLength = t.header.length := by rw [Sending.firstLength, hsum, Header.length]
  obtain ⟨hpiece, hpages⟩ := h.firstPiece
  have hhelper := addMemShareHelper_spec (i := i) hpiece
  rw [hpages, hsum, if_pos rfl] at hhelper
  rw [addMemShare, if_neg (by omega), h.init]
  dsimp only
  rw [if_neg (by rw [Header.length]; omega), mobjNew_spec h w' hbits]
  dsimp only
  rw [if_neg (fun hne => hne hlength), hlength, Header.length, Nat.add_sub_cancel_left, share_new, hhelper]
  rfl

lemma addMemShare_first (hmore : t.following ≠ []) (w' : World)
    (hbits : w'.shmBits = w.shmBits) :
    addMemShare cfg w' env t.place.mm (t.place.addr cfg) t.place.offs t.header.length t.firstLength =
      ({ w' with
        shmBits := w.shmBits.set i true
        fragStateHead := ⟨share i t.header.pageCount (pagesOf (rangesAt t.desc t.header.addrRangeOffs t.first))
          (t.header.regionCount - t.first), t.place.mm, t.firstLength⟩ :: w'.fragStateHead },
        (t.firstLength : ℤ), 2 ^ 44 + i) := by
  have hsum := h.sum
  have hpos : 0 < (t.following.map (·.2)).sum := by
    obtain ⟨f, fs, hf⟩ := exists_cons_of_ne_nil hmore
    have := h.pos f (by rw [hf]; exact mem_cons_self)
    rw [hf, map_cons, sum_cons]
    omega
  have hlt := h.wf.length_lt
  obtain ⟨hpiece, hpages⟩ := h.firstPiece
  have hlength : t.firstLength < t.header.length := by
    rw [Sending.firstLength, Header.length]
    omega
  have hfirst : t.header.addrRangeOffs + 16 * t.first = t.firstLength := rfl
  rw [addMemShare, if_neg (by omega), h.init]
  dsimp only
  rw [if_neg (by rw [Header.length]; omega), mobjNew_spec h w' hbits]
  dsimp only
  rw [if_pos (by omega), h.fragMemory, Nat.mod_eq_of_lt (by omega),
    show t.firstLength - t.header.addrRangeOffs = 16 * t.first from Nat.add_sub_cancel_left ..]
  have hfrag : addMemShareFrag cfg
      { w' with
        shmBits := w.shmBits.set i true
        fragStateHead := ⟨share i t.header.pageCount [] t.header.regionCount, t.place.mm, t.header.addrRangeOffs⟩ ::
          w'.fragStateHead } 0 ⟨share i t.header.pageCount [] t.header.regionCount, t.place.mm, t.header.addrRangeOffs⟩
      _ _ _ _ = _ := addMemShareFrag_more hpiece (by omega) (by omega) rfl
  rw [hpages] at hfrag
  rw [share_new, hfrag]
  rfl

end

def Place.leave (rc : ℤ) (w : World) : Place → World
  | .rx => w
  | .tmem _ pageCount page =>
    if 0 < rc then w else mmFree (unmapPages w page pageCount) ⟨page, pageCount * smallPageSize⟩

variable {rc : ℤ} {rest : List Frag}

lemma handleMemShare_place (h : Valid cfg w env t i) {w' : World} {handle : ℕ}
    (hadd : addMemShare cfg (t.place.enter w) env t.place.mm (t.place.addr cfg) t.place.offs t.header.length
      t.firstLength = (w', rc, handle)) : handleMemShare cfg w env (t.place.args t.header.length t.firstLength) =
      (t.place.leave rc w', shareAnswer rc handle) := by
  have hready := h.ready
  cases hplace : t.place with
  | rx =>
    rw [hplace] at hadd hready
    obtain ⟨⟨addr, haddr, -⟩, hsize, -⟩ := hready
    rw [Place.addr, haddr] at hadd
    rw [handleMemShare, Place.args, handleMemShareRxbuf, haddr]
    dsimp only
    rw [if_pos hsize]
    exact congrArg (fun r : World × ℤ × ℕ => (r.1, shareAnswer r.2.1 r.2.2)) hadd
  | tmem pbuf pageCount page =>
    rw [hplace] at hadd hready
    obtain ⟨hpbuf, -, hcount, hsec, hroom, hmm, hmapping, -⟩ := hready
    have hlen : ¬(pageCount * smallPageSize < t.header.length ∨
        (pageCount * smallPageSize + 2 ^ 64 - pbuf % smallPageSize) % 2 ^ 64 < t.header.length) := by
      simp only [smallPageSize] at hroom ⊢
      omega
    have hadd' : addMemShare cfg (mapPages { w with mms := ⟨page, pageCount * smallPageSize⟩ :: w.mms } page pageCount)
        env (some ⟨page, pageCount * smallPageSize⟩) (page * smallPageSize) (pbuf % smallPageSize) t.header.length
        t.firstLength = (w', rc, handle) := hadd
    rw [handleMemShare, Place.args, if_neg (by simp), if_neg (fun hne => hpbuf hne.1), if_neg hpbuf,
      Nat.mod_eq_of_lt hcount, handleMemShareTmem]
    rw [hsec, if_neg (by decide), if_neg hlen, hmm]
    dsimp only
    rw [hmapping, if_neg (by decide), hadd']
    rw [Place.leave]
    split <;> rfl

lemma enter_shmBits (w : World) (p : Place) : (p.enter w).shmBits = w.shmBits := by
  cases p <;> rfl

lemma enter_shmInactiveHead (w : World) (p : Place) : (p.enter w).shmInactiveHead = w.shmInactiveHead := by
  cases p <;> rfl

lemma enter_fragStateHead (w : World) (p : Place) : (p.enter w).fragStateHead = w.fragStateHead := by
  cases p <;> rfl

lemma leave_of_pos (hrc : 0 < rc) (w : World) (p : Place) : p.leave rc w = w := by
  cases p with
  | rx => rfl
  | tmem pbuf pageCount page => exact if_pos hrc

section

variable (h : Valid cfg w env t i)
include h

lemma Valid.left (bits : List Bool) (objs : List Mobj) :
    t.place.leave 0 { t.place.enter w with shmBits := bits, shmInactiveHead := objs } =
      { w with shmBits := bits, shmInactiveHead := objs } := by
  have hready := h.ready
  cases hplace : t.place with
  | rx => rfl
  | tmem pbuf pageCount page =>
    rw [hplace] at hready
    obtain ⟨-, -, -, -, -, -, -, hunmapped⟩ := hready
    have hmapped : (fun v => if page ≤ v ∧ v < page + pageCount then false else
        if page ≤ v ∧ v < page + pageCount then true else w.mapped v) = w.mapped := by
      funext v
      split
      · next hv => exact (hunmapped v hv.1 hv.2).symm
      · rfl
    rw [Place.leave, if_neg (Int.lt_irrefl 0), mmFree, unmapPages]
    simp only [Place.enter, mapPages, erase_cons_head, hmapped]

lemma handleMemShare_whole (hwhole : t.following = []) :
    handleMemShare cfg w env (t.place.args t.header.length t.firstLength) =
      ({ w with shmBits := w.shmBits.set i true, shmInactiveHead := t.object i :: w.shmInactiveHead },
        .success 0 (2 ^ 44 + i)) := by
  rw [handleMemShare_place h (addMemShare_whole h hwhole (t.place.enter w) (enter_shmBits w t.place)), h.left]
  rw [enter_shmInactiveHead]
  rfl

lemma handleMemShare_first (hmore : t.following ≠ []) :
    handleMemShare cfg w env (t.place.args t.header.length t.firstLength) =
      ({ t.place.enter w with
        shmBits := w.shmBits.set i true
        fragStateHead := ⟨share i t.header.pageCount (pagesOf (rangesAt t.desc t.header.addrRangeOffs t.first))
          (t.header.regionCount - t.first), t.place.mm, t.firstLength⟩ :: w.fragStateHead },
        .success ((2 ^ 44 + i) % 2 ^ 32) (2 ^ 44 + i)) := by
  have hpos : (0 : ℤ) < (t.firstLength : ℤ) := by
    have := h.wf.accesses
    rw [Sending.firstLength]
    omega
  rw [handleMemShare_place h (addMemShare_first h hmore (t.place.enter w) (enter_shmBits w t.place)),
    leave_of_pos hpos, shareAnswer, if_neg (by omega), if_pos hpos, enter_fragStateHead]

end

def Place.Fits (cfg : Config) (flen : ℕ) : Place → Prop
  | .rx => flen ≤ cfg.rxSize
  | .tmem _ pageCount _ => flen ≤ pageCount * smallPageSize

lemma handleMemFragTx_head (env : Env) {p : Place} {s : Frag} {flen : ℕ} {w' : World}
    (hw : w.fragStateHead = s :: rest) (hcookie : s.share.mf.cookie = 2 ^ 44 + i) (hmm : s.mm = p.mm)
    (hfits : p.Fits cfg flen) (hfrag : addMemShareFrag cfg w 0 s (p.addr cfg) env.buf 0 flen = (w', rc))
    (hrc : 0 < rc) : handleMemFragTx cfg w env (2 ^ 44 + i) flen = (w', .fragRx (2 ^ 44 + i) rc) := by
  have hstate : getFragState w (2 ^ 44 + i) = some (0, s) := by
    rw [getFragState, hw, findIdx?_cons, hcookie, decide_eq_true rfl]
    rfl
  have hnot : ¬rc < 0 := by omega
  have hnot' : ¬rc ≤ 0 := by omega
  cases p with
  | rx =>
    have hsize : ¬cfg.rxSize < flen := not_lt.mpr hfits
    have htx : fragTx cfg w env (2 ^ 44 + i) flen = (w', rc, none, 0) := by
      rw [fragTx, hstate]
      dsimp only
      rw [hmm]
      rw [if_neg hsize]
      exact congrArg (fun r : World × ℤ => (r.1, r.2, none, 0)) hfrag
    rw [handleMemFragTx, htx]
    dsimp only
    rw [if_neg hnot, if_pos hrc]
  | tmem pbuf pageCount page =>
    have hsize : ¬pageCount * smallPageSize < flen := not_lt.mpr hfits
    have htx : fragTx cfg w env (2 ^ 44 + i) flen =
        (w', rc, some ⟨page, pageCount * smallPageSize⟩, s.share.pageCount) := by
      rw [fragTx, hstate]
      dsimp only
      rw [hmm, Place.mm]
      dsimp only
      rw [if_neg hsize]
      exact congrArg (fun r : World × ℤ => (r.1, r.2, some (Mm.mk page (pageCount * smallPageSize)), s.share.pageCount))
        hfrag
    rw [handleMemFragTx, htx]
    dsimp only
    rw [if_neg hnot, if_neg hnot', if_pos hrc]

lemma fragCalls_spec {desc : Buffer} {hd : Header} (hwf : WellFormed cfg desc hd) {p : Place}
    (halign : p.addr cfg % 8 = 0) {fs : List (Buffer × ℕ)} (hne : fs ≠ [])
    (hsum : c + (fs.map (·.2)).sum = hd.regionCount) (hpos : ∀ f ∈ fs, 0 < f.2)
    (hholds : HoldsAll 0 desc (hd.addrRangeOffs + 16 * c) fs) (hfits : ∀ f ∈ fs, p.Fits cfg (16 * f.2))
    (hw : w.fragStateHead = ⟨share i hd.pageCount (pagesOf (rangesAt desc hd.addrRangeOffs c)) (hd.regionCount - c), p.mm,
      hd.addrRangeOffs + 16 * c⟩ :: rest) : fragCalls cfg env (2 ^ 44 + i) w fs =
      ({ w with
        fragStateHead := rest
        shmInactiveHead := obj i hd.pageCount (pagesOf (rangesAt desc hd.addrRangeOffs hd.regionCount)) ::
          w.shmInactiveHead },
        fragAnswers (2 ^ 44 + i) (hd.addrRangeOffs + 16 * c) (fs.map (·.2))) := by
  have hlength := hwf.length_lt
  have haccs := hwf.accesses
  rw [Header.length] at hlength
  induction fs generalizing c w with
  | nil => exact absurd rfl hne
  | cons f fs ih =>
    rw [map_cons, sum_cons] at hsum
    rw [forall_mem_cons] at hpos hfits
    have halign' : (p.addr cfg + 0) % 8 = 0 := halign
    obtain ⟨hpiece, hpages⟩ := hwf.piece (by omega) halign' hholds.1
    cases fs with
    | nil =>
      rw [map_nil, sum_nil] at hsum
      have hlast := addMemShareFrag_last hpiece (by omega) (by omega) hw
      rw [hpages] at hlast
      rw [fragCalls, handleMemFragTx_head { env with buf := f.1 } (i := i) hw rfl rfl hfits.1 hlast (by omega)]
      rw [show c + f.2 = hd.regionCount by omega]
      rfl
    | cons g gs =>
      have hg := hpos.2 g mem_cons_self
      have hsum' : 0 < ((g :: gs).map (·.2)).sum := by
        rw [map_cons, sum_cons]
        omega
      have hoffset : hd.addrRangeOffs + 16 * c + 16 * f.2 = hd.addrRangeOffs + 16 * (c + f.2) := by omega
      have hmore := addMemShareFrag_more hpiece (by omega) (by omega) hw
      rw [hpages, Nat.sub_sub, hoffset] at hmore
      have hrest := ih (w := { w with fragStateHead := ⟨share i hd.pageCount
        (pagesOf (rangesAt desc hd.addrRangeOffs (c + f.2))) (hd.regionCount - (c + f.2)), p.mm,
        hd.addrRangeOffs + 16 * (c + f.2)⟩ :: rest }) (cons_ne_nil g gs) (by omega) hpos.2
        (by rw [← hoffset]; exact hholds.2) hfits.2 rfl
      rw [fragCalls, handleMemFragTx_head { env with buf := f.1 } (i := i) hw rfl rfl hfits.1 hmore (by omega)]
      dsimp only
      rw [hrest, ← hoffset]
      rfl

end Run

theorem share_in_fragments (cfg : Config) (w : World) (env : Env) (t : Sending) (i : ℕ) (h : Valid cfg w env t i) :
    (t.AsClaimed cfg w env i ↔ t.following = []) ∧
    (t.following ≠ [] → t.place.offs = 0 → t.run cfg w env i =
      ({ t.place.enter w with
        shmBits := w.shmBits.set i true
        shmInactiveHead := t.object i :: w.shmInactiveHead },
        .success ((2 ^ 44 + i) % 2 ^ 32) (2 ^ 44 + i) ::
          fragAnswers (2 ^ 44 + i) t.firstLength (t.following.map (·.2)))) := by
  refine ⟨⟨fun hclaimed => ?_, fun hwhole => ?_⟩, fun hmore hoffs => ?_⟩
  · by_contra hmore
    obtain ⟨f, fs, hf⟩ := exists_cons_of_ne_nil hmore
    have hanswers := congrArg (fun r : World × List Answer => r.2.head?.map (·.fid)) hclaimed
    rw [Sending.run, handleMemShare_first h hmore, hf] at hanswers
    cases hanswers
  · rw [Sending.AsClaimed, Sending.run, handleMemShare_whole h hwhole, hwhole]
    rfl
  · have hready := h.ready
    have hsum := h.sum
    have halign := h.align
    have hholds := h.holdsAll
    rw [hoffs] at halign
    rw [hoffs] at hholds
    have hfits : ∀ f ∈ t.following, t.place.Fits cfg (16 * f.2) := by
      intro f hf
      cases hplace : t.place with
      | rx =>
        rw [hplace] at hready
        exact hready.2.2 f hf
      | tmem pbuf pageCount page =>
        rw [hplace] at hready
        obtain ⟨-, -, -, -, hroom, -⟩ := hready
        have hle : f.2 ≤ (t.following.map (·.2)).sum :=
          Lib.Threads.le_sum (·.2) hf
        show 16 * f.2 ≤ pageCount * smallPageSize
        rw [Header.length] at hroom
        omega
    rw [Sending.run, handleMemShare_first h hmore]
    dsimp only
    rw [fragCalls_spec h.wf halign hmore hsum h.pos hholds hfits (rfl : _ = _ :: w.fragStateHead)]
    rw [enter_shmInactiveHead, enter_fragStateHead]
    rfl

def demoBytes : List UInt8 :=
  [0, 0, 0x2f, 0, 0, 0, 0, 0] ++ List.replicate 20 0 ++ [1, 0, 0, 0] ++
  [1, 0, 2, 0, 48, 0, 0, 0] ++ List.replicate 8 0 ++
  [2, 0, 0, 0, 2, 0, 0, 0] ++ List.replicate 8 0 ++
  [0, 0x10, 0, 0, 0, 0, 0, 0, 1, 0, 0, 0, 0, 0, 0, 0] ++ [0, 0x50, 0, 0, 0, 0, 0, 0, 1, 0, 0, 0, 0, 0, 0, 0]

def demoDesc : Buffer := fun j => demoBytes.getD j 0

def demoConfig : Config := ⟨1, fun _ _ => true, some 0, 4096⟩

def demoWorld : World := ⟨[], [], List.replicate 64 false, [], fun _ => false⟩

def demoEnv : Env := ⟨demoDesc, true, true, some 8, true⟩

def twoFragments (place : Place) : Sending := ⟨demoDesc, ⟨2, 2, 64⟩, 1, [(fun j => demoDesc (80 + j), 1)], place⟩

theorem share_in_fragments_rx :
    Valid demoConfig demoWorld demoEnv (twoFragments .rx) 0 ∧
    ((twoFragments .rx).AsClaimed demoConfig demoWorld demoEnv 0 ↔ (twoFragments .rx).following = []) ∧
    ((twoFragments .rx).run demoConfig demoWorld demoEnv 0).2 =
      [.success 0 (2 ^ 44), .fragRx (2 ^ 44) ((80 : ℕ) : ℤ)] := by
  have hvalid : Valid demoConfig demoWorld demoEnv (twoFragments .rx) 0 :=
    ⟨⟨rfl, by decide, fun _ _ => rfl, rfl, by decide, by decide, by decide⟩, rfl, by decide, fun j _ => congrArg demoDesc rfl,
      ⟨fun j _ => congrArg (fun k => demoDesc (80 + k)) (zero_add j), trivial⟩, ⟨⟨0, rfl, rfl⟩, by decide, by decide⟩, rfl, rfl, rfl⟩
  obtain ⟨hclaimed, hrun⟩ := share_in_fragments demoConfig demoWorld demoEnv (twoFragments .rx) 0 hvalid
  exact ⟨hvalid, hclaimed, congrArg Prod.snd (hrun (by decide) rfl)⟩

theorem fragments_not_as_claimed :
    ¬(twoFragments .rx).AsClaimed demoConfig demoWorld demoEnv 0 ∧
    ¬(twoFragments (.tmem 4096 1 8)).AsClaimed demoConfig demoWorld demoEnv 0 ∧
    ((twoFragments (.tmem 4096 1 8)).run demoConfig demoWorld demoEnv 0).1.mms = [⟨8, 4096⟩] := by
  refine ⟨fun h => ?_, fun h => ?_, by decide⟩
  all_goals exact absurd (congrArg Prod.snd h) (by decide)

end Optee.Spmc
