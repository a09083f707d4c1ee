import Optee.FsHtree.HashTree
import Optee.Lib.BitString

/-! The directory file: entries, and a bit for every file number in use. -/

namespace Optee.ReeFs

open FsHtree Lib.ByteStrings Lib List

inductive Panic
  | nullTree
  | hashTree
  | refcount
  | sharedDirh
  | fileNumber
  | fileBit
  | stillFound
  | noHandle
  deriving DecidableEq

inductive Stop
  | code (e : TeeError)
  | panic (p : Panic)

def Stop.ofError : TeeError → Stop
  | .panic => .panic .hashTree
  | e => .code e

def Stop.Ordinary : Stop → Prop
  | .code _ => True
  | .panic a => a ≠ .nullTree ∧ a ≠ .refcount ∧ a ≠ .sharedDirh

@[simp] def Stop.Tame (e : Stop) : Prop := e ≠ .panic .fileNumber ∧ e ≠ .panic .fileBit

lemma tame_code (c : TeeError) : (Stop.code c).Tame := by simp

def Stop.Plain : Stop → Prop
  | .code _ => True
  | .panic a => a = .hashTree ∨ a = .stillFound ∨ a = .noHandle

lemma Stop.Plain.ordinary {e : Stop} (h : e.Plain) : e.Ordinary := by
  cases e with
  | code e => trivial
  | panic a => rcases h with rfl | rfl | rfl <;> simp [Stop.Ordinary]

lemma Stop.Plain.tame {e : Stop} (h : e.Plain) : e.Tame := by
  cases e with
  | code e => simp
  | panic a => rcases h with rfl | rfl | rfl <;> simp

lemma Stop.plain_ofError (e : TeeError) : (Stop.ofError e).Plain := by
  cases e <;> simp [Stop.ofError, Stop.Plain]

def check (p : Prop) [Decidable p] (a : Panic) : Except Stop Unit := if p then .ok () else .error (.panic a)

structure Dirent where
  uuid : Uuid
  oid : List UInt8
  hash : Bytes 32
  fileNumber : ℕ
  deriving DecidableEq

def Dirent.zero : Dirent := ⟨zeroBytes 16, [], zeroBytes 32, 0⟩

def oidMaxLen : ℕ := 64

structure Fileh where
  fileNumber : ℕ
  hash : Bytes 32
  idx : Option ℕ

structure Dirh where
  id : ℕ
  files : List Bool
  dents : List Dirent

namespace Dirh

variable (d : Dirh)

def testFile (n : ℕ) : Bool := BitString.test d.files n

def setFile (n : ℕ) : Dirh := { d with files := BitString.set d.files n }

def clearFile (n : ℕ) : Dirh := { d with files := BitString.clear d.files n }

def readDent (idx : Option ℕ) : Except Stop Dirent :=
  match idx.bind (fun n => d.dents[n]?) with
  | some e => .ok e
  | none => .error (.code .itemNotFound)

def writeDent (n : ℕ) (e : Dirent) : Dirh :=
  { d with dents := (d.dents ++ List.replicate (n + 1 - d.dents.length) Dirent.zero).set n e }

def openDents (files : List Bool) : List Dirent → List Bool × List Dirent
  | [] => (files, [])
  | e :: es =>
    if e.oid = [] then
      let r := openDents files es
      (r.1, e :: r.2)
    else if BitString.test files e.fileNumber then
      let r := openDents files es
      (r.1, Dirent.zero :: r.2)
    else
      let r := openDents (BitString.set files e.fileNumber) es
      (r.1, e :: r.2)

def load (id : ℕ) (dents : List Dirent) : Dirh := ⟨id, (openDents [] dents).1, (openDents [] dents).2⟩

def tmpNumber : ℕ := BitString.firstClear d.files

def getTmp : Dirh := d.setFile d.tmpNumber

def findLoop (uuid : Uuid) (oid : List UInt8) : ℕ → Option ℕ → List Dirent → Except Stop Fileh
  | n, firstFree, [] =>
    if oid = [] then .ok ⟨0, zeroBytes 32, some (firstFree.getD n)⟩ else .error (.code .itemNotFound)
  | n, firstFree, e :: es => do
    let firstFree := if e.oid = [] then firstFree <|> some n else firstFree
    if e.oid.length ≠ oid.length then findLoop uuid oid (n + 1) firstFree es
    else do
      check (oid = [] ∨ e.oid = [] ∨ d.testFile e.fileNumber) .fileBit
      if e.uuid = uuid ∧ e.oid = oid then .ok ⟨e.fileNumber, e.hash, some n⟩
      else findLoop uuid oid (n + 1) firstFree es

def find (uuid : Uuid) (oid : List UInt8) : Except Stop Fileh := d.findLoop uuid oid 0 none d.dents

def renameIdx (uuid : Uuid) (oid : List UInt8) : Option ℕ → Except Stop ℕ
  | some n => .ok n
  | none =>
    match d.find uuid oid with
    | .ok dfh => .ok (dfh.idx.getD 0)
    | .error (.code .itemNotFound) => (d.find uuid []).map (fun dfh => dfh.idx.getD 0)
    | .error e => .error e

def rename (uuid : Uuid) (dfh : Fileh) (oid : List UInt8) : Except Stop (Dirh × Fileh) :=
  if oid = [] ∨ oidMaxLen < oid.length then .error (.code .badParameters)
  else do
    let n ← d.renameIdx uuid oid dfh.idx
    pure (d.writeDent n ⟨uuid, oid, dfh.hash, dfh.fileNumber⟩, { dfh with idx := some n })

def remove (dfh : Fileh) : Except Stop Dirh := do
  let e ← d.readDent dfh.idx
  if e.oid = [] then pure d
  else do
    check (dfh.fileNumber = e.fileNumber) .fileNumber
    check (d.testFile e.fileNumber) .fileBit
    pure ((d.writeDent (dfh.idx.getD 0) Dirent.zero).clearFile e.fileNumber)

def updateHash (dfh : Fileh) : Except Stop Dirh := do
  let e ← d.readDent dfh.idx
  check (e.fileNumber = dfh.fileNumber) .fileNumber
  check (d.testFile e.fileNumber) .fileBit
  pure (d.writeDent (dfh.idx.getD 0) { e with hash := dfh.hash })

def nextLoop (uuid : Uuid) : ℕ → List Dirent → Except Stop (ℕ × List UInt8)
  | _, [] => .error (.code .itemNotFound)
  | n, e :: es => if e.uuid = uuid ∧ e.oid ≠ [] then .ok (n, e.oid) else nextLoop uuid (n + 1) es

def getNext (uuid : Uuid) (idx : Option ℕ) : Except Stop (ℕ × List UInt8) :=
  let n := idx.elim 0 (· + 1)
  nextLoop uuid n (d.dents.drop n)

lemma check_cases {p : Prop} [Decidable p] {a : Panic} {x : Except Stop Unit} (h : check p a = x) :
    p ∧ x = .ok () ∨ ¬p ∧ x = .error (.panic a) := by
  unfold check at h
  split_ifs at h with hp
  · exact .inl ⟨hp, h.symm⟩
  · exact .inr ⟨hp, h.symm⟩

variable {d : Dirh} {d' : Dirh} {uuid : Uuid} {oid : List UInt8} {dfh dfh' : Fileh} {e : Stop} {idx : Option ℕ}

lemma readDent_ok {x : Dirent} : d.readDent idx = .ok x ↔ ∃ n, idx = some n ∧ d.dents[n]? = some x := by
  unfold readDent
  cases idx with
  | none => simp
  | some n =>
    simp only [Option.bind_some, Option.some.injEq, exists_eq_left']
    cases d.dents[n]? with
    | none | some y => simp

lemma getElem?_writeDent {n : ℕ} (hn : n ≤ d.dents.length) (x : Dirent) (m : ℕ) :
    (d.writeDent n x).dents[m]? = if m = n then some x else d.dents[m]? := by
  unfold writeDent
  rw [getElem?_set]
  by_cases hm : n = m
  · subst hm
    rw [if_pos rfl, if_pos rfl, if_pos (by rw [length_append, length_replicate]; omega)]
  rw [if_neg hm, if_neg (Ne.symm hm)]
  by_cases hlt : m < d.dents.length
  · rw [getElem?_append_left hlt]
  · rw [getElem?_eq_none (by rw [length_append, length_replicate]; omega),
      getElem?_eq_none (Nat.le_of_not_lt hlt)]

section FindLoop

variable {n : ℕ} {firstFree : Option ℕ} {es : List Dirent}

lemma findLoop_ok (hoid : oid ≠ []) (h : d.findLoop uuid oid n firstFree es = .ok dfh) :
    ∃ k x, es[k]? = some x ∧ x.uuid = uuid ∧ x.oid = oid ∧ d.testFile x.fileNumber = true ∧
      dfh = ⟨x.fileNumber, x.hash, some (n + k)⟩ := by
  induction es generalizing n firstFree with
  | nil =>
    rw [findLoop, if_neg hoid] at h
    cases h
  | cons x es ih =>
    have hrest : ∀ {n' f'}, n' = n + 1 → d.findLoop uuid oid n' f' es = .ok dfh → ∃ k y, (x :: es)[k]? = some y ∧
        y.uuid = uuid ∧ y.oid = oid ∧ d.testFile y.fileNumber = true ∧ dfh = ⟨y.fileNumber, y.hash, some (n + k)⟩ := by
      rintro n' f' rfl h
      obtain ⟨k, y, hy, hu, ho, ht, hd⟩ := ih h
      exact ⟨k + 1, y, hy, hu, ho, ht, by rw [hd, add_assoc, add_comm 1]⟩
    rw [findLoop] at h
    by_cases hlen : x.oid.length = oid.length
    · rw [if_neg (not_not_intro hlen)] at h
      rcases check_cases (p := oid = [] ∨ x.oid = [] ∨ d.testFile x.fileNumber) rfl with
        ⟨hbit, heq⟩ | ⟨-, heq⟩
      · rw [heq] at h
        by_cases hname : x.uuid = uuid ∧ x.oid = oid
        · rw [if_pos hname] at h
          cases h
          have hx : d.testFile x.fileNumber = true := by
            rcases hbit with h | h | h
            · exact absurd h hoid
            · exact absurd (hname.2.symm.trans h) hoid
            · exact h
          exact ⟨0, x, rfl, hname.1, hname.2, hx, rfl⟩
        · rw [if_neg hname] at h
          exact hrest rfl h
      · rw [heq] at h
        cases h
    · rw [if_pos hlen] at h
      exact hrest rfl h

lemma findLoop_error (hoid : oid ≠ []) (h : d.findLoop uuid oid n firstFree es = .error e) :
    e = .code .itemNotFound ∧ (∀ x ∈ es, ¬(x.uuid = uuid ∧ x.oid = oid)) ∨
      e = .panic .fileBit ∧ ∃ x ∈ es, x.oid ≠ [] ∧ d.testFile x.fileNumber = false := by
  induction es generalizing n firstFree with
  | nil =>
    rw [findLoop, if_neg hoid] at h
    cases h
    exact .inl ⟨rfl, by simp⟩
  | cons x es ih =>
    have hrest : ∀ {n' f'}, ¬(x.uuid = uuid ∧ x.oid = oid) → d.findLoop uuid oid n' f' es = .error e →
        e = .code .itemNotFound ∧ (∀ y ∈ x :: es, ¬(y.uuid = uuid ∧ y.oid = oid)) ∨
          e = .panic .fileBit ∧ ∃ y ∈ x :: es, y.oid ≠ [] ∧ d.testFile y.fileNumber = false := by
      intro n' f' hne h
      rcases ih h with ⟨he, hall⟩ | ⟨he, y, hy, hoid, hbit⟩
      · exact .inl ⟨he, forall_mem_cons.mpr ⟨hne, hall⟩⟩
      · exact .inr ⟨he, y, mem_cons_of_mem _ hy, hoid, hbit⟩
    rw [findLoop] at h
    by_cases hlen : x.oid.length = oid.length
    · rw [if_neg (not_not_intro hlen)] at h
      rcases check_cases (p := oid = [] ∨ x.oid = [] ∨ d.testFile x.fileNumber) rfl with
        ⟨-, heq⟩ | ⟨hbit, heq⟩
      · rw [heq] at h
        by_cases hname : x.uuid = uuid ∧ x.oid = oid
        · rw [if_pos hname] at h
          cases h
        · rw [if_neg hname] at h
          exact hrest hname h
      · rw [heq] at h
        cases h
        push Not at hbit
        exact .inr ⟨rfl, x, mem_cons_self, hbit.2.1, by simpa using hbit.2.2⟩
    · rw [if_pos hlen] at h
      exact hrest (fun hname => hlen (by rw [hname.2])) h

lemma findLoop_free (uuid : Uuid) (n : ℕ) (firstFree : Option ℕ) (es : List Dirent) :
    ∃ dfh m, d.findLoop uuid [] n firstFree es = .ok dfh ∧ dfh.idx = some m ∧
      (firstFree = some m ∨ (∃ k x, es[k]? = some x ∧ x.oid = [] ∧ m = n + k) ∨ m = n + es.length) := by
  induction es generalizing n firstFree with
  | nil =>
    refine ⟨_, firstFree.getD n, by rw [findLoop, if_pos rfl], rfl, ?_⟩
    cases firstFree with
    | none => exact .inr (.inr rfl)
    | some m => exact .inl rfl
  | cons x es ih =>
    rw [findLoop]
    by_cases hx : x.oid = []
    · rw [if_neg (by simp [hx])]
      split_ifs
      · exact ⟨_, n, rfl, rfl, .inr (.inl ⟨0, x, rfl, hx, rfl⟩)⟩
      obtain ⟨dfh, m, hok, hidx, hm⟩ := ih (n + 1) (firstFree <|> some n)
      refine ⟨dfh, m, hok, hidx, ?_⟩
      rcases hm with hm | ⟨k, y, hy, hfree, rfl⟩ | rfl
      · cases firstFree with
        | none =>
          cases hm
          exact .inr (.inl ⟨0, x, rfl, hx, rfl⟩)
        | some m' => exact .inl hm
      · exact .inr (.inl ⟨k + 1, y, hy, hfree, by omega⟩)
      · exact .inr (.inr (by rw [length_cons]; omega))
    · rw [if_neg hx, if_pos (by simpa using hx)]
      obtain ⟨dfh, m, hok, hidx, hm⟩ := ih (n + 1) firstFree
      refine ⟨dfh, m, hok, hidx, ?_⟩
      rcases hm with hm | ⟨k, y, hy, hfree, rfl⟩ | rfl
      · exact .inl hm
      · exact .inr (.inl ⟨k + 1, y, hy, hfree, by omega⟩)
      · exact .inr (.inr (by rw [length_cons]; omega))

end FindLoop

def HasName (d : Dirh) (n : ℕ) (uuid : Uuid) (oid : List UInt8) : Prop :=
  ∃ x, d.dents[n]? = some x ∧ x.uuid = uuid ∧ x.oid = oid

def LostBit (d : Dirh) : Prop := ∃ x ∈ d.dents, x.oid ≠ [] ∧ d.testFile x.fileNumber = false

lemma find_ok (hoid : oid ≠ []) (h : d.find uuid oid = .ok dfh) :
    ∃ n x, d.dents[n]? = some x ∧ x.uuid = uuid ∧ x.oid = oid ∧ d.testFile x.fileNumber = true ∧
      dfh = ⟨x.fileNumber, x.hash, some n⟩ := by
  obtain ⟨k, x, hx, hu, ho, ht, rfl⟩ := findLoop_ok hoid h
  exact ⟨k, x, hx, hu, ho, ht, by rw [zero_add]⟩

lemma find_error (hoid : oid ≠ []) (h : d.find uuid oid = .error e) :
    e = .code .itemNotFound ∧ (∀ n, ¬d.HasName n uuid oid) ∨ e = .panic .fileBit ∧ d.LostBit := by
  refine (findLoop_error hoid h).imp_left (fun ⟨he, hall⟩ => ⟨he, ?_⟩)
  rintro n ⟨x, hx, hname⟩
  exact hall x (mem_of_getElem? hx) hname

def FreeIdx (d : Dirh) (n : ℕ) : Prop := n ≤ d.dents.length ∧ ∀ x, d.dents[n]? = some x → x.oid = []

lemma find_free (d : Dirh) (uuid : Uuid) : ∃ dfh n, d.find uuid [] = .ok dfh ∧ dfh.idx = some n ∧ d.FreeIdx n := by
  obtain ⟨dfh, m, hok, hidx, hm⟩ := findLoop_free uuid 0 none d.dents
  refine ⟨dfh, m, hok, hidx, ?_⟩
  rcases hm with hm | ⟨k, x, hx, hfree, rfl⟩ | rfl
  · cases hm
  · obtain ⟨hlt, -⟩ := List.getElem?_eq_some_iff.mp hx
    refine ⟨by omega, fun y hy => ?_⟩
    rw [zero_add, hx] at hy
    cases hy
    exact hfree
  · refine ⟨by omega, fun y hy => ?_⟩
    rw [zero_add, getElem?_eq_none le_rfl] at hy
    cases hy

lemma find_ordinary (h : d.find uuid oid = .error e) : e.Ordinary := by
  by_cases hoid : oid = []
  · subst hoid
    obtain ⟨dfh, n, hok, -⟩ := d.find_free uuid
    rw [hok] at h
    cases h
  · rcases find_error hoid h with ⟨rfl, -⟩ | ⟨rfl, -⟩
    · trivial
    · simp [Stop.Ordinary]

inductive Placed (d : Dirh) (n : ℕ) (uuid : Uuid) (oid : List UInt8) : Prop
  | over (h : d.HasName n uuid oid)
  | free (h : d.FreeIdx n) (hnew : ∀ m, ¬d.HasName m uuid oid)

lemma renameIdx_ok {n : ℕ} (hoid : oid ≠ []) (h : d.renameIdx uuid oid idx = .ok n) :
    idx = some n ∨ idx = none ∧ d.Placed n uuid oid := by
  cases idx with
  | some m =>
    cases h
    exact .inl rfl
  | none =>
    refine .inr ⟨rfl, ?_⟩
    rw [renameIdx] at h
    split at h
    · next hfind =>
      cases h
      obtain ⟨m, x, hx, hu, ho, -, rfl⟩ := find_ok hoid hfind
      exact .over ⟨x, hx, hu, ho⟩
    · next hfind =>
      obtain ⟨dfh, m, hok, hidx, hfree⟩ := d.find_free uuid
      rw [hok] at h
      cases h
      dsimp only
      rw [hidx]
      rcases find_error hoid hfind with ⟨-, hnew⟩ | ⟨he, -⟩
      · exact .free hfree hnew
      · cases he
    · cases h

lemma renameIdx_error (hoid : oid ≠ []) (h : d.renameIdx uuid oid idx = .error e) :
    e = .panic .fileBit ∧ d.LostBit := by
  cases idx with
  | some m => cases h
  | none =>
    rw [renameIdx] at h
    split at h
    · cases h
    · obtain ⟨dfh, m, hok, -⟩ := d.find_free uuid
      rw [hok] at h
      cases h
    next hne hfind =>
    cases h
    rcases find_error hoid hfind with ⟨he, -⟩ | hlost
    · exact absurd he hne
    · exact hlost

lemma rename_ok (h : d.rename uuid dfh oid = .ok (d', dfh')) :
    oid ≠ [] ∧ ∃ n, d' = d.writeDent n ⟨uuid, oid, dfh.hash, dfh.fileNumber⟩ ∧ dfh' = { dfh with idx := some n } ∧
      (dfh.idx = some n ∨ dfh.idx = none ∧ d.Placed n uuid oid) := by
  unfold rename at h
  split_ifs at h with hoid
  push Not at hoid
  cases hidx : d.renameIdx uuid oid dfh.idx with
  | error e =>
    rw [hidx] at h
    cases h
  | ok n =>
    rw [hidx] at h
    cases h
    exact ⟨hoid.1, n, rfl, rfl, renameIdx_ok hoid.1 hidx⟩

lemma rename_error (h : d.rename uuid dfh oid = .error e) :
    e = .code .badParameters ∨ e = .panic .fileBit ∧ d.LostBit := by
  unfold rename at h
  split_ifs at h with hoid
  · cases h
    exact .inl rfl
  push Not at hoid
  cases hidx : d.renameIdx uuid oid dfh.idx with
  | ok n =>
    rw [hidx] at h
    cases h
  | error e' =>
    rw [hidx] at h
    cases h
    exact .inr (renameIdx_error hoid.1 hidx)

def EntryOf (d : Dirh) (dfh : Fileh) (n : ℕ) (x : Dirent) : Prop := dfh.idx = some n ∧ d.dents[n]? = some x

lemma readDent_bind {f : Dirent → Except Stop Dirh} {r : Except Stop Dirh} (h : (d.readDent dfh.idx >>= f) = r) :
    r = .error (.code .itemNotFound) ∧ (∀ n x, ¬d.EntryOf dfh n x) ∨ ∃ n x, d.EntryOf dfh n x ∧ f x = r := by
  cases hx : d.readDent dfh.idx with
  | error e =>
    rw [hx] at h
    have hnone : ∀ n x, ¬d.EntryOf dfh n x := by
      rintro n x ⟨hn, hget⟩
      rw [readDent_ok.mpr ⟨n, hn, hget⟩] at hx
      cases hx
    unfold readDent at hx
    split at hx
    · cases hx
    · cases hx
      exact .inl ⟨h.symm, hnone⟩
  | ok x =>
    obtain ⟨n, hn, hget⟩ := readDent_ok.mp hx
    rw [hx] at h
    exact .inr ⟨n, x, ⟨hn, hget⟩, h⟩

lemma check_bind {p : Prop} [Decidable p] {a : Panic} {k r : Except Stop Dirh} (h : (check p a >>= fun _ => k) = r) :
    p ∧ k = r ∨ ¬p ∧ .error (.panic a) = r := by
  rcases check_cases (p := p) rfl with ⟨hp, heq⟩ | ⟨hp, heq⟩
  · rw [heq] at h
    exact .inl ⟨hp, h⟩
  · rw [heq] at h
    exact .inr ⟨hp, h⟩

lemma remove_ok (h : d.remove dfh = .ok d') :
    ∃ n x, d.EntryOf dfh n x ∧
      (x.oid = [] ∧ d' = d ∨ x.oid ≠ [] ∧ d' = (d.writeDent n Dirent.zero).clearFile x.fileNumber) := by
  obtain ⟨he, -⟩ | ⟨n, x, hx, h⟩ := readDent_bind h
  · cases he
  refine ⟨n, x, hx, ?_⟩
  split_ifs at h with hoid
  · cases h
    exact .inl ⟨hoid, rfl⟩
  obtain ⟨-, h⟩ | ⟨-, h⟩ := check_bind h
  · obtain ⟨-, h⟩ | ⟨-, h⟩ := check_bind h
    · cases h
      rw [hx.1]
      exact .inr ⟨hoid, rfl⟩
    · cases h
  · cases h

lemma remove_error (h : d.remove dfh = .error e) :
    e = .code .itemNotFound ∧ (∀ n x, ¬d.EntryOf dfh n x) ∨ ∃ n x, d.EntryOf dfh n x ∧ x.oid ≠ [] ∧
      (e = .panic .fileNumber ∧ x.fileNumber ≠ dfh.fileNumber ∨ e = .panic .fileBit ∧ d.testFile x.fileNumber = false) := by
  obtain ⟨he, hno⟩ | ⟨n, x, hx, h⟩ := readDent_bind h
  · cases he
    exact .inl ⟨rfl, hno⟩
  refine .inr ⟨n, x, hx, ?_⟩
  split_ifs at h with hoid
  · cases h
  refine ⟨hoid, ?_⟩
  obtain ⟨-, h⟩ | ⟨hnum, h⟩ := check_bind h
  · obtain ⟨-, h⟩ | ⟨hbit, h⟩ := check_bind h
    · cases h
    · cases h
      exact .inr ⟨rfl, by simpa using hbit⟩
  · cases h
    exact .inl ⟨rfl, Ne.symm hnum⟩

lemma updateHash_ok (h : d.updateHash dfh = .ok d') :
    ∃ n x, d.EntryOf dfh n x ∧ x.fileNumber = dfh.fileNumber ∧ d' = d.writeDent n { x with hash := dfh.hash } := by
  obtain ⟨he, -⟩ | ⟨n, x, hx, h⟩ := readDent_bind h
  · cases he
  obtain ⟨hnum, h⟩ | ⟨-, h⟩ := check_bind h
  · obtain ⟨-, h⟩ | ⟨-, h⟩ := check_bind h
    · cases h
      rw [hx.1]
      exact ⟨n, x, hx, hnum, rfl⟩
    · cases h
  · cases h

lemma updateHash_error (h : d.updateHash dfh = .error e) :
    e = .code .itemNotFound ∧ (∀ n x, ¬d.EntryOf dfh n x) ∨ ∃ n x, d.EntryOf dfh n x ∧
      (e = .panic .fileNumber ∧ x.fileNumber ≠ dfh.fileNumber ∨ e = .panic .fileBit ∧ d.testFile x.fileNumber = false) := by
  obtain ⟨he, hno⟩ | ⟨n, x, hx, h⟩ := readDent_bind h
  · cases he
    exact .inl ⟨rfl, hno⟩
  refine .inr ⟨n, x, hx, ?_⟩
  obtain ⟨-, h⟩ | ⟨hnum, h⟩ := check_bind h
  · obtain ⟨-, h⟩ | ⟨hbit, h⟩ := check_bind h
    · cases h
    · cases h
      exact .inr ⟨rfl, by simpa using hbit⟩
  · cases h
    exact .inl ⟨rfl, hnum⟩

lemma nextLoop_error {n : ℕ} {es : List Dirent} (h : nextLoop uuid n es = .error e) : e = .code .itemNotFound := by
  induction es generalizing n with
  | nil =>
    cases h
    rfl
  | cons x es ih =>
    rw [nextLoop] at h
    split_ifs at h
    exact ih h

lemma getNext_error (h : d.getNext uuid idx = .error e) : e = .code .itemNotFound := nextLoop_error h

end Dirh

end Optee.ReeFs
