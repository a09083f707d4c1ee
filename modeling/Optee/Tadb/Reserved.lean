import Optee.Lib.Runs
import Optee.Tadb.Database

/-! File numbers: the bit field covers the live entries of the database and the installations in progress. -/

namespace Optee.Tadb

open Lib Lib.ByteStrings Option TeeResult BitString List

def Phase.HoldsDb : Phase → Bool
  | .idle => false
  | .removing _ => false
  | _ => true

def Phase.number? : Phase → Option ℕ
  | .reserved entry => some entry.fileNumber
  | .installing entry _ => some entry.fileNumber
  | .aborting entry => some entry.fileNumber
  | .clearing entry => some entry.fileNumber
  | _ => none

def Phase.Named : Phase → Prop
  | .creating prop => prop.uuid ≠ nullUuid
  | .reserved entry => entry.Live
  | .installing entry _ => entry.Live
  | .aborting entry => entry.Live
  | .clearing entry => entry.Live
  | .deleting uuid => uuid ≠ nullUuid
  | _ => True

def Distinct (file : List Entry) : Prop :=
  ∀ (i j : ℕ) (e e' : Entry), file[i]? = some e → file[j]? = some e' → e.Live → e'.Live →
    e.prop.uuid = e'.prop.uuid ∨ e.fileNumber = e'.fileNumber → i = j

def Marked (files : List Bool) (file : List Entry) : Prop :=
  ∀ e ∈ file, e.Live → BitString.test files e.fileNumber = true

def Unused (file : List Entry) (number : ℕ) : Prop := ∀ e ∈ file, e.Live → e.fileNumber ≠ number

def World.number? (w : World) (c : ℕ) : Option ℕ := w.callers[c]?.bind Phase.number?

structure World.Reserving (w : World) : Prop where
  refs : w.refc = w.callers.countP Phase.HoldsDb
  opened : w.db = none ↔ w.refc = 0
  distinct : Distinct w.file
  populated : ∀ files, w.db = some files → files ≠ [] → w.populated = true
  marked : ∀ files, w.db = some files → w.populated = true → Marked files w.file
  named : ∀ p ∈ w.callers, p.Named
  own : ∀ c n, w.number? c = some n → (∃ files, w.db = some files ∧ BitString.test files n = true) ∧ Unused w.file n
  apart : ∀ c c' n, w.number? c = some n → w.number? c' = some n → c = c'

variable {w w' : World} {c : ℕ} {p p' : Phase} {file : List Entry} {files : List Bool}

lemma number?_moved (w : World) (c c' : ℕ) (p : Phase) (hc : c < w.callers.length) :
    (w.moved c p).number? c' = if c' = c then p.number? else w.number? c' := by
  rw [World.number?, World.number?, World.moved, getElem?_set]
  by_cases h : c' = c
  · rw [if_pos h.symm, if_pos h, if_pos hc, bind_some]
  · rw [if_neg (Ne.symm h), if_neg h]

lemma number?_of_moved {m n : ℕ} (hc : w.callers[c]? = some p) (hnumber : p'.number?.or p.number? = p.number?)
    (hn : (w.moved c p').number? m = some n) : w.number? m = some n := by
  rw [number?_moved _ _ _ _ (List.getElem?_eq_some_iff.mp hc).1] at hn
  split_ifs at hn with h
  · rw [h, World.number?, hc, bind_some, ← hnumber, hn, some_or]
  · exact hn

variable {idx : ℕ} {entry e : Entry} {fault : ℕ → Option TeeError} {uuid : Uuid} {rest file' : List Entry}
  {F : PopulateFaults} {res : TeeResult (List Bool)}

lemma written_live {i : ℕ} (h : (written file idx entry)[i]? = some e) (he : e.Live) :
    i = idx ∧ e = entry ∨ i ≠ idx ∧ file[i]? = some e := by
  rw [written, getElem?_set] at h
  by_cases hi : i = idx
  · subst hi
    rw [if_pos rfl] at h
    split_ifs at h
    exact Or.inl ⟨rfl, (Option.some.inj h).symm⟩
  · rw [if_neg (Ne.symm hi), getElem?_append] at h
    split_ifs at h with hlt
    · exact Or.inr ⟨hi, h⟩
    · rw [eq_of_mem_replicate (mem_of_getElem? h)] at he
      exact absurd rfl he

lemma mem_written_live (h : e ∈ written file idx entry) (he : e.Live) :
    e = entry ∨ ∃ i, i ≠ idx ∧ file[i]? = some e := by
  obtain ⟨i, hi⟩ := mem_iff_getElem?.mp h
  rcases written_live hi he with ⟨-, heq⟩ | ⟨hne, hget⟩
  · exact Or.inl heq
  · exact Or.inr ⟨i, hne, hget⟩

lemma Distinct.written (h : Distinct file) (hfresh : entry.Live → ∀ i e, i ≠ idx → file[i]? = some e → e.Live →
      e.prop.uuid ≠ entry.prop.uuid ∧ e.fileNumber ≠ entry.fileNumber) : Distinct (written file idx entry) := by
  intro i j e e' hi hj he he' heq
  rcases written_live hi he with ⟨rfl, rfl⟩ | ⟨hii, hgi⟩ <;> rcases written_live hj he' with ⟨rfl, rfl⟩ | ⟨hjj, hgj⟩
  · rfl
  · have := hfresh he j e' hjj hgj he'
    rcases heq with heq | heq
    · exact absurd heq.symm this.1
    · exact absurd heq.symm this.2
  · have := hfresh he' i e hii hgi he
    rcases heq with heq | heq
    · exact absurd heq this.1
    · exact absurd heq this.2
  · exact h i j e e' hgi hgj he he' heq

lemma Unused.written {n : ℕ} (h : Unused file n) (hentry : entry.Live → entry.fileNumber ≠ n) :
    Unused (written file idx entry) n := by
  intro e he hlive
  rcases mem_written_live he hlive with rfl | ⟨i, -, hget⟩
  · exact hentry hlive
  · exact h e (mem_of_getElem? hget) hlive

lemma findEntFrom_found {k : ℕ} (h : findEntFrom fault uuid rest k = (.ok e, idx)) :
    k ≤ idx ∧ rest[idx - k]? = some e ∧ e.prop.uuid = uuid := by
  induction rest generalizing k with
  | nil => cases h
  | cons entry rest ih =>
    rw [findEntFrom] at h
    cases hf : fault k with
    | some err =>
      rw [hf] at h
      cases h
    | none =>
      simp only [hf] at h
      split_ifs at h with hu
      · cases h
        exact ⟨le_rfl, by rw [Nat.sub_self]; rfl, hu⟩
      · obtain ⟨hk, hget, hu'⟩ := ih h
        refine ⟨by omega, ?_, hu'⟩
        rwa [show idx - k = idx - (k + 1) + 1 by omega]

lemma findEnt_found (h : findEnt file fault uuid = (.ok e, idx)) : file[idx]? = some e ∧ e.prop.uuid = uuid :=
  (findEntFrom_found h).2

lemma findEntFrom_absent {k : ℕ} {err : TeeError} (hfault : ∀ i, k ≤ i → i < k + rest.length → fault i = none)
    (h : findEntFrom fault uuid rest k = (.error err, idx)) : ∀ e ∈ rest, e.prop.uuid ≠ uuid := by
  induction rest generalizing k with
  | nil =>
    intro e he
    cases he
  | cons entry rest ih =>
    rw [findEntFrom, hfault k le_rfl (by simp)] at h
    split_ifs at h with hu
    · cases h
    rw [forall_mem_cons]
    exact ⟨hu, ih (fun i hi hlt => hfault i (by omega) (by rw [length_cons]; omega)) h⟩

variable {fault : Option TeeError}

lemma setFile_ok {files' : List Bool} (h : setFile files idx fault = .ok files') :
    files' = BitString.set files idx := by
  cases fault with
  | none =>
    cases h
    rfl
  | some e =>
    rw [setFile] at h
    split_ifs at h
    cases h
    rfl

lemma populateFrom_spec (hdistinct : Distinct file) (hread : ∀ i < file.length, F.read i ≠ some .itemNotFound)
    (hidx : idx ≤ file.length) (hrest : rest = file.drop idx)
    (hfiles : ∀ n, BitString.test files n = true ↔ ∃ i < idx, ∃ e, file[i]? = some e ∧ e.Live ∧ e.fileNumber = n)
    (h : populateFrom F rest idx file files = (res, file')) :
    file' = file ∧ ∀ files', res = .ok files' → Marked files' file := by
  induction rest generalizing idx files with
  | nil =>
    have hend : file.length = idx := by
      have := congrArg List.length hrest
      rw [length_nil, length_drop] at this
      omega
    have hmarked : Marked files file := by
      intro e he hlive
      obtain ⟨i, hi, hget⟩ := mem_iff_getElem.mp he
      exact (hfiles _).mpr ⟨i, by omega, e, by rw [getElem?_eq_getElem hi, hget], hlive, rfl⟩
    rw [populateFrom] at h
    split at h
    · cases h
      exact ⟨rfl, fun _ hok => by cases hok; exact hmarked⟩
    · cases h
      exact ⟨rfl, fun _ hok => by cases hok; exact hmarked⟩
    · cases h
      exact ⟨rfl, fun _ hok => by cases hok⟩
  | cons entry rest ih =>
    have hlt : idx < file.length := by
      have := congrArg List.length hrest
      rw [length_cons, length_drop] at this
      omega
    rw [drop_eq_getElem_cons hlt, List.cons.injEq] at hrest
    have hget : file[idx]? = some entry := by rw [getElem?_eq_getElem hlt, hrest.1]
    rw [populateFrom] at h
    split at h
    · exact absurd ‹_› (hread idx hlt)
    · cases h
      exact ⟨rfl, fun _ hok => by cases hok⟩
    by_cases hlive : entry.Live
    · rw [if_neg (not_not.mpr hlive)] at h
      have hfresh : ¬ BitString.test files entry.fileNumber = true := by
        rw [hfiles]
        rintro ⟨i, hi, e, hgi, hei, hn⟩
        have := hdistinct i idx e entry hgi hget hei hlive (Or.inr hn)
        omega
      rw [if_neg hfresh] at h
      split at h
      · rename_i files' hset
        refine ih (by omega) hrest.2 (fun n => ?_) h
        rw [setFile_ok hset, test_set, Bool.or_eq_true, decide_eq_true_eq, hfiles]
        constructor
        · rintro (rfl | ⟨i, hi, e, hgi, hei, hn⟩)
          · exact ⟨idx, by omega, entry, hget, hlive, rfl⟩
          · exact ⟨i, by omega, e, hgi, hei, hn⟩
        · rintro ⟨i, hi, e, hgi, hei, hn⟩
          by_cases hii : i = idx
          · subst hii
            rw [hget] at hgi
            cases hgi
            exact Or.inl hn.symm
          · exact Or.inr ⟨i, by omega, e, hgi, hei, hn⟩
      · cases h
        exact ⟨rfl, fun _ hok => by cases hok⟩
    · rw [if_pos hlive] at h
      refine ih (by omega) hrest.2 (fun n => ?_) h
      rw [hfiles]
      constructor
      · rintro ⟨i, hi, e, hgi, hei, hn⟩
        exact ⟨i, by omega, e, hgi, hei, hn⟩
      · rintro ⟨i, hi, e, hgi, hei, hn⟩
        refine ⟨i, ?_, e, hgi, hei, hn⟩
        by_contra hge
        obtain rfl : i = idx := by omega
        rw [hget] at hgi
        cases hgi
        exact hlive hei

lemma populateFiles_spec (hdistinct : Distinct file)
    (hread : files = [] → ∀ i < file.length, F.read i ≠ some .itemNotFound) (hmarked : files ≠ [] → Marked files file)
    (h : populateFiles F file files = (res, file')) :
    file' = file ∧ ∀ files', res = .ok files' → Marked files' file ∧ (files ≠ [] → files' = files) := by
  rw [populateFiles] at h
  by_cases hnil : files = []
  · subst hnil
    obtain ⟨hfile, hok⟩ := populateFrom_spec hdistinct (hread rfl) (Nat.zero_le _) rfl
      (fun n => iff_of_false (by simp [BitString.test]) (by simp)) h
    exact ⟨hfile, fun files' hfiles' => ⟨hok files' hfiles', fun hne => absurd rfl hne⟩⟩
  · rw [if_pos hnil] at h
    cases h
    refine ⟨rfl, fun files' hfiles' => ?_⟩
    cases hfiles'
    exact ⟨hmarked hnil, fun _ => rfl⟩

lemma World.db_bind {α : Type} {f : List Bool → TeeResult α} (hdb : w.db = some files) :
    (orError .panic w.db >>= f) = f files := by
  rw [hdb]
  rfl

namespace World.Reserving

section

variable (h : w.Reserving)
include h

lemma countP_moved (hc : w.callers[c]? = some p) (p' : Phase) :
    (w.moved c p').callers.countP Phase.HoldsDb + p.HoldsDb.toNat = w.refc + p'.HoldsDb.toNat := by
  obtain ⟨hlt, rfl⟩ := List.getElem?_eq_some_iff.mp hc
  have hpos : w.callers[c].HoldsDb = true → 0 < w.callers.countP Phase.HoldsDb := fun hp =>
    countP_pos_iff.mpr ⟨_, getElem_mem hlt, hp⟩
  rw [h.refs, World.moved, countP_set hlt]
  cases hp : w.callers[c].HoldsDb with
  | false => cases p'.HoldsDb <;> simp
  | true =>
    have := hpos hp
    cases p'.HoldsDb <;> simp <;> omega

lemma exists_db (hc : w.callers[c]? = some p) (hp : p.HoldsDb = true) : ∃ files, w.db = some files := by
  have hpos : 0 < w.callers.countP Phase.HoldsDb := countP_pos_iff.mpr ⟨p, mem_of_getElem? hc, hp⟩
  cases hdb : w.db with
  | some files => exact ⟨files, rfl⟩
  | none =>
    have := h.opened.mp hdb
    rw [h.refs] at this
    omega

lemma named_moved (hnamed : p'.Named) : ∀ q ∈ (w.moved c p').callers, q.Named := by
  intro q hq
  rcases mem_or_eq_of_mem_set hq with hq | rfl
  · exact h.named q hq
  · exact hnamed

lemma update (p' : Phase) (hc : w.callers[c]? = some p) (hp : p.HoldsDb = true) (hp' : p'.HoldsDb = true)
    (hnamed : p'.Named) {populated : Bool} (hdistinct : Distinct file) (hpopulated : files ≠ [] → populated = true)
    (hmarked : populated = true → Marked files file)
    (hothers : ∀ c' n, c' ≠ c → w.number? c' = some n → BitString.test files n = true ∧ Unused file n)
    (hown : ∀ n, p'.number? = some n →
      BitString.test files n = true ∧ Unused file n ∧ ∀ c', c' ≠ c → w.number? c' ≠ some n) :
    ({ w with file, db := some files, populated }.moved c p').Reserving where
  refs := by
    have := h.countP_moved hc p'
    rw [hp, hp'] at this
    exact (Nat.add_right_cancel this).symm
  opened := by
    obtain ⟨files0, hdb⟩ := h.exists_db hc hp
    refine iff_of_false (by simp [World.moved]) (fun hzero => ?_)
    rw [h.opened.mpr hzero] at hdb
    cases hdb
  distinct := hdistinct
  populated files' hfiles' hne := by
    cases hfiles'
    exact hpopulated hne
  marked files' hfiles' hpop := by
    cases hfiles'
    exact hmarked hpop
  named := h.named_moved hnamed
  own c' n hn := by
    have hlt : c < w.callers.length := (List.getElem?_eq_some_iff.mp hc).1
    rw [number?_moved _ _ _ _ (by exact hlt)] at hn
    split_ifs at hn with hcc
    · exact ⟨⟨files, rfl, (hown n hn).1⟩, (hown n hn).2.1⟩
    · exact ⟨⟨files, rfl, (hothers c' n hcc hn).1⟩, (hothers c' n hcc hn).2⟩
  apart c1 c2 n h1 h2 := by
    have hlt : c < w.callers.length := (List.getElem?_eq_some_iff.mp hc).1
    rw [number?_moved _ _ _ _ (by exact hlt)] at h1 h2
    split_ifs at h1 h2 with hc1 hc2 hc2
    · rw [hc1, hc2]
    · exact absurd h2 ((hown n h1).2.2 c2 hc2)
    · exact absurd h1 ((hown n h2).2.2 c1 hc1)
    · exact h.apart c1 c2 n h1 h2

lemma recount (hc : w.callers[c]? = some p) (hnamed : p'.Named) (hnumber : p'.number?.or p.number? = p.number?) {refc : ℕ}
    (hrefc : refc + p.HoldsDb.toNat = w.refc + p'.HoldsDb.toNat) (hopened : w.db = none ↔ refc = 0) :
    ({ w with refc }.moved c p').Reserving where
  refs := Nat.add_right_cancel (hrefc.trans (h.countP_moved hc p').symm)
  opened := hopened
  distinct := h.distinct
  populated := h.populated
  marked := h.marked
  named := h.named_moved hnamed
  own c' n hn := h.own c' n (number?_of_moved hc hnumber hn)
  apart c1 c2 n h1 h2 := h.apart c1 c2 n (number?_of_moved hc hnumber h1) (number?_of_moved hc hnumber h2)

lemma phase (hc : w.callers[c]? = some p) (hp : p'.HoldsDb = p.HoldsDb) (hnamed : p'.Named)
    (hnumber : p'.number?.or p.number? = p.number?) : (w.moved c p').Reserving :=
  h.recount hc hnamed hnumber (by rw [hp]) h.opened

lemma turnover (hnamed : p'.Named) (hnone : ∀ c' n, (w.moved c p').number? c' ≠ some n) {db : Option (List Bool)}
    {populated : Bool} {refc : ℕ} (hdb : ∀ files, db = some files → files = [] ∧ populated = false)
    (hrefc : refc = (w.moved c p').callers.countP Phase.HoldsDb) (hopened : db = none ↔ refc = 0) :
    ({ w with db, populated, refc }.moved c p').Reserving where
  refs := hrefc
  opened := hopened
  distinct := h.distinct
  populated files hfiles hne := absurd (hdb files hfiles).1 hne
  marked files hfiles hpop := Bool.noConfusion ((hdb files hfiles).2.symm.trans hpop)
  named := h.named_moved hnamed
  own c' n hn := absurd hn (hnone c' n)
  apart c1 _ n hn _ := absurd hn (hnone c1 n)

lemma others (hdb : w.db = some files) {c' n : ℕ} (hn : w.number? c' = some n) :
    BitString.test files n = true ∧ Unused w.file n := by
  obtain ⟨⟨files', hfiles', htest⟩, hunused⟩ := h.own c' n hn
  rw [hdb] at hfiles'
  cases hfiles'
  exact ⟨htest, hunused⟩

lemma enter (hc : w.callers[c]? = some .idle) (hp' : p'.HoldsDb = true)
    (hnamed : uuid ≠ nullUuid → p'.Named) (hnumber : p'.number? = none) (hok : w.enter c uuid p' fault = .ok w') :
    w'.Reserving := by
  have hcount := h.countP_moved hc p'
  rw [hp', show Phase.HoldsDb .idle = false from rfl] at hcount
  rw [World.enter] at hok
  replace hnumber : p'.number?.or Phase.idle.number? = Phase.idle.number? := by rw [hnumber, none_or]
  split_ifs at hok with hnull
  · cases hok
    exact h
  unfold World.tadbOpen at hok
  split_ifs at hok with hzero
  · simp only [bind_eq_ok, assert_eq_ok] at hok
    obtain ⟨w1, ⟨-, hdb, hw1⟩, hok⟩ := hok
    cases fault with
    | some e =>
      cases hw1
      cases hok
      exact h
    | none =>
      cases hw1
      cases hok
      -- nobody had a number, as that needs an open database
      refine h.turnover (hnamed hnull) (fun c' n hn => ?_) (by simp) (by simpa [hzero] using hcount.symm) (by simp)
      obtain ⟨⟨files, hfiles, -⟩, -⟩ := h.own c' n (number?_of_moved hc hnumber hn)
      rw [hdb] at hfiles
      cases hfiles
  · cases hok
    exact h.recount hc (hnamed hnull) hnumber (by rw [hp']; rfl)
      (iff_of_false (fun hnone => hzero (h.opened.mp hnone)) (Nat.succ_ne_zero _))

lemma put {removal : Option ℕ} (hc : w.callers[c]? = some (.releasing removal))
    (hok : w.tadbPut = .ok w') : (w'.moved c (removal.elim .idle .removing)).Reserving := by
  have hp' : (removal.elim Phase.idle Phase.removing).HoldsDb = false := by cases removal <;> rfl
  have hnamed : (removal.elim Phase.idle Phase.removing).Named := by cases removal <;> trivial
  have hcount := h.countP_moved hc (removal.elim .idle .removing)
  rw [hp', show Phase.HoldsDb (.releasing removal) = true from rfl, Bool.toNat_true, Bool.toNat_false] at hcount
  simp only [World.tadbPut, bind_eq_ok, assert_eq_ok, exists_const] at hok
  obtain ⟨hdb, href, hok⟩ := hok
  split_ifs at hok with hone
  · cases hok
    -- the last reference is gone, so no caller has a number
    have hnone : ∀ c' n, (w.moved c (removal.elim .idle .removing)).number? c' ≠ some n := by
      intro c' n hn
      obtain ⟨p, hp, hpn⟩ := bind_eq_some_iff.mp hn
      have hholds : p.HoldsDb = true := by cases p <;> first | rfl | cases hpn
      have := countP_pos_iff.mpr ⟨p, mem_of_getElem? hp, hholds⟩
      omega
    exact h.turnover hnamed hnone (fun _ hfiles => by cases hfiles) (by omega) (iff_of_true rfl rfl)
  · cases hok
    exact h.recount hc hnamed (by cases removal <;> rfl) (by rw [hp']; exact Nat.sub_add_cancel (by omega))
      (iff_of_false hdb (by omega))

lemma reserve {prop : Property}
    (hc : w.callers[c]? = some (.creating prop))
    (hread : w.db = some [] → ∀ i < w.file.length, F.read i ≠ some .itemNotFound)
    (hok : w.reserve c prop F fault = .ok w') : w'.Reserving := by
  have hprop : prop.uuid ≠ nullUuid := h.named _ (mem_of_getElem? hc)
  obtain ⟨files, hdb⟩ := h.exists_db hc rfl
  unfold World.reserve at hok
  rw [World.db_bind hdb] at hok
  generalize hpop : populateFiles F w.file files = result at hok
  obtain ⟨res, file'⟩ := result
  obtain ⟨rfl, hspec⟩ := populateFiles_spec h.distinct (fun hnil => hread (by rw [hdb, hnil]))
    (fun hne => h.marked files hdb (h.populated files hdb hne)) hpop
  cases res with
  | error e =>
    cases hok
    have hnil : files = [] := by
      by_contra hne
      rw [populateFiles, if_pos hne] at hpop
      cases hpop
    refine h.update (.releasing none) hc rfl rfl trivial h.distinct (fun hne => absurd rfl hne) (fun hfalse => by cases hfalse)
      (fun c' n _ hn => ?_) (fun n hn => by cases hn)
    exact hnil ▸ h.others hdb hn
  | ok files' =>
    obtain ⟨hmarked, hsame⟩ := hspec files' rfl
    have hothers : ∀ c' n, w.number? c' = some n → BitString.test files' n = true ∧ Unused w.file n := by
      intro c' n hn
      have := h.others hdb hn
      rwa [hsame (by rintro rfl; cases this.1)]
    simp only at hok
    split at hok
    · cases hok
      exact h.update (.releasing none) hc rfl rfl trivial h.distinct (fun _ => rfl) (fun _ => hmarked)
        (fun c' n _ hn => hothers c' n hn) (fun n hn => by cases hn)
    rename_i files'' hset
    cases hok
    rw [setFile_ok hset]
    have hclear : BitString.test files' (BitString.firstClear files') = false := test_firstClear files'
    have hkeep : ∀ n, BitString.test files' n = true →
        BitString.test (BitString.set files' (BitString.firstClear files')) n = true := by
      intro n hn
      rw [test_set, hn, Bool.or_true]
    refine h.update (.reserved { Entry.null with prop, fileNumber := BitString.firstClear files' }) hc rfl rfl hprop
      h.distinct (fun _ => rfl) (fun _ e he hlive => hkeep _ (hmarked e he hlive)) (fun c' n _ hn => ⟨hkeep n (hothers c' n hn).1, (hothers c' n hn).2⟩) (fun n hn => ?_)
    cases hn
    refine ⟨by rw [test_set]; simp, fun e he hlive heq => ?_, fun c' _ hn => ?_⟩
    · have hset := hmarked e he hlive
      rw [heq] at hset
      exact absurd hset (by rw [hclear]; decide)
    · rw [(hothers c' _ hn).1] at hclear
      cases hclear

end

variable {lookup : ℕ → Option TeeError} {out : WriteOutcome}

lemma commit {free : ℕ → Option TeeError} (h : w.Reserving) (hc : w.callers[c]? = some p) (hp : p.HoldsDb = true)
    (hlive : entry.Live) (hnumber : p.number? = some entry.fileNumber)
    (hlookup : ∀ i < w.file.length, lookup i = none) (hout : ∀ e, out ≠ .landed e)
    (hok : w.commit c entry lookup free out = .ok w') : w'.Reserving := by
  have hself : w.number? c = some entry.fileNumber := by rw [World.number?, hc, bind_some, hnumber]
  obtain ⟨files, hdb⟩ := h.exists_db hc hp
  obtain ⟨htest, hunused⟩ := h.others hdb hself
  have habort : (w.moved c (.aborting entry)).Reserving := h.phase hc hp.symm hlive (by rw [hnumber]; rfl)
  have hothers : ∀ c' n, c' ≠ c → w.number? c' = some n → entry.fileNumber ≠ n := by
    rintro c' n hne hn rfl
    exact hne (h.apart c' c _ hn hself)
  unfold World.commit at hok
  rw [World.db_bind hdb] at hok
  split at hok
  · rename_i old idx hfind
    obtain ⟨hget, huuid⟩ := findEnt_found hfind
    have hold : old.Live := by
      intro hnull
      exact hlive (huuid.symm.trans hnull)
    have holdn : ∀ n, Unused w.file n → n ≠ old.fileNumber :=
      fun n hn heq => hn old (mem_of_getElem? hget) hold heq.symm
    cases out with
    | landed e => exact absurd rfl (hout e)
    | lost e =>
      cases hok
      exact habort
    | done =>
      cases hok
      refine h.update (.releasing _) hc hp rfl trivial (h.distinct.written fun _ i e hi hgi he => ⟨fun heq => ?_, ?_⟩)
        (fun hne => h.populated files hdb (fun hnil => hne (clear_eq_nil.mpr hnil))) (fun hpop e he hle => ?_)
        (fun c' n hne hn => ⟨?_, ?_⟩) (fun n hn => by cases hn)
      · exact hi (h.distinct i idx e old hgi hget he hold (Or.inl (heq.trans huuid.symm)))
      · exact hunused e (mem_of_getElem? hgi) he
      · rw [test_clear, Bool.and_eq_true, decide_eq_true_eq]
        rcases mem_written_live he hle with rfl | ⟨i, hi, hgi⟩
        · exact ⟨htest, holdn _ hunused⟩
        · exact ⟨h.marked files hdb hpop e (mem_of_getElem? hgi) hle,
            fun heq => hi (h.distinct i idx e old hgi hget hle hold (Or.inr heq))⟩
      · rw [test_clear, Bool.and_eq_true, decide_eq_true_eq]
        exact ⟨(h.others hdb hn).1, holdn n (h.others hdb hn).2⟩
      · exact (h.others hdb hn).2.written (fun _ => hothers c' n hne hn)
  · rename_i err idx0 hfind
    have habsent := findEntFrom_absent (fun i _ hi => hlookup i (by omega)) hfind
    split at hok
    · cases hok
      exact habort
    cases out with
    | landed e => exact absurd rfl (hout e)
    | lost e =>
      cases hok
      exact habort
    | done =>
      cases hok
      rw [hdb]
      refine h.update (.releasing none) hc hp rfl trivial (h.distinct.written fun _ i e _ hgi he => ⟨?_, ?_⟩)
        (h.populated files hdb) (fun hpop e he hle => ?_) (fun c' n hne hn => ⟨(h.others hdb hn).1, ?_⟩)
        (fun n hn => by cases hn)
      · exact habsent e (mem_of_getElem? hgi)
      · exact hunused e (mem_of_getElem? hgi) he
      · rcases mem_written_live he hle with rfl | ⟨i, -, hgi⟩
        · exact htest
        · exact h.marked files hdb hpop e (mem_of_getElem? hgi) hle
      · exact (h.others hdb hn).2.written (fun _ => hothers c' n hne hn)

lemma deleteEnt (h : w.Reserving) (hc : w.callers[c]? = some (.deleting uuid)) (hout : ∀ e, out ≠ .lost e)
    (hok : w.deleteEnt c uuid lookup out = .ok w') : w'.Reserving := by
  have huuid : uuid ≠ nullUuid := h.named _ (mem_of_getElem? hc)
  obtain ⟨files, hdb⟩ := h.exists_db hc rfl
  unfold World.deleteEnt at hok
  rw [World.db_bind hdb] at hok
  split at hok
  · cases hok
    exact h.phase hc rfl trivial rfl
  rename_i entry idx hfind
  obtain ⟨hget, heq⟩ := findEnt_found hfind
  have hlive : entry.Live := fun hn => huuid (heq.symm.trans hn)
  have hnull : ¬ Entry.null.Live := fun hn => hn rfl
  have hcleared : ∀ removal, ({ w with
      file := written w.file idx Entry.null
      db := some (BitString.clear files entry.fileNumber) }.moved c (.releasing removal)).Reserving := by
    intro removal
    refine h.update (.releasing removal) hc rfl rfl trivial (h.distinct.written fun hn => absurd hn hnull)
      (fun hne => h.populated files hdb (fun hnil => hne (clear_eq_nil.mpr hnil))) (fun hpop e he hle => ?_)
      (fun c' n hne hn => ⟨?_, (h.others hdb hn).2.written fun hn => absurd hn hnull⟩) (fun n hn => by cases hn)
    · rw [test_clear, Bool.and_eq_true, decide_eq_true_eq]
      rcases mem_written_live he hle with rfl | ⟨i, hi, hgi⟩
      · exact absurd hle hnull
      · exact ⟨h.marked files hdb hpop e (mem_of_getElem? hgi) hle,
          fun hn => hi (h.distinct i idx e entry hgi hget hle hlive (Or.inr hn))⟩
    · rw [test_clear, Bool.and_eq_true, decide_eq_true_eq]
      exact ⟨(h.others hdb hn).1, fun hn' => (h.others hdb hn).2 entry (mem_of_getElem? hget) hlive hn'.symm⟩
  cases out with
  | lost e => exact absurd rfl (hout e)
  | done | landed e =>
    cases hok
    exact hcleared _

lemma clearNumber (h : w.Reserving) (hc : w.callers[c]? = some (.clearing entry)) (hdb : w.db = some files) :
    ({ w with db := some (BitString.clear files entry.fileNumber) }.moved c (.releasing none)).Reserving := by
  have hself : w.number? c = some entry.fileNumber := by rw [World.number?, hc]; rfl
  refine h.update (.releasing none) hc rfl rfl trivial h.distinct
    (fun hne => h.populated files hdb (fun hnil => hne (clear_eq_nil.mpr hnil))) (fun hpop e he hle => ?_)
    (fun c' n hne hn => ⟨?_, (h.others hdb hn).2⟩) (fun n hn => by cases hn)
  · rw [test_clear, Bool.and_eq_true, decide_eq_true_eq]
    exact ⟨h.marked files hdb hpop e he hle, (h.others hdb hself).2 e he hle⟩
  · rw [test_clear, Bool.and_eq_true, decide_eq_true_eq]
    exact ⟨(h.others hdb hn).1, fun heq => hne (h.apart c' c n hn (heq ▸ hself))⟩

end World.Reserving

/-- No lookup is cut short by a failed read, no failed write lands, and no write that clears an entry is lost. -/
def World.Sound (w : World) (move : ℕ × Act) : Prop :=
  match move.2 with
  | .reserve faults _ => w.db = some [] → ∀ i < w.file.length, faults.read i ≠ some .itemNotFound
  | .commit _ _ lookup _ out => (∀ i < w.file.length, lookup i = none) ∧ ¬ ∃ e, out = .landed e
  | .deleteEnt _ out => ¬ ∃ e, out = .lost e
  | _ => True

lemma World.Reserving.step {move : ℕ × Act} (h : w.Reserving) (hsound : w.Sound move) (hok : w.step move = .ok w') :
    w'.Reserving := by
  obtain ⟨c, act⟩ := move
  have hnamed : ∀ p, w.callers[c]? = some p → p.Named := fun p hp => h.named p (mem_of_getElem? hp)
  unfold World.step at hok
  dsimp only at hok
  split at hok
  · exact h.enter ‹_› rfl id rfl hok
  · exact h.reserve ‹_› hsound hok
  · rename_i entry iv key fault hc
    cases fault with
    | some e =>
      cases hok
      exact h.phase hc rfl trivial rfl
    | none =>
      cases hok
      exact h.phase hc rfl (hnamed _ hc :) rfl
  · rename_i entry pos len hc
    cases hok
    exact h.phase hc rfl (hnamed _ hc :) rfl
  · rename_i entry pos tag fault lookup free out hc
    cases fault with
    | some e =>
      cases hok
      exact h.phase hc rfl (hnamed _ hc :) rfl
    | none =>
      have hlive : ({ entry with tag } : Entry).Live := hnamed _ hc
      exact h.commit hc rfl hlive rfl hsound.1 (fun e he => hsound.2 ⟨e, he⟩) hok
  · rename_i entry pos hc
    cases hok
    exact h.phase hc rfl (hnamed _ hc :) rfl
  · rename_i entry hc
    cases hok
    exact h.phase hc rfl (hnamed _ hc :) rfl
  · rename_i entry hc
    obtain ⟨files, hfiles, hok⟩ := bind_eq_ok.mp hok
    cases hok
    exact h.clearNumber hc (orError_eq_ok.mp hfiles)
  · exact h.enter ‹_› rfl id rfl hok
  · exact h.deleteEnt ‹_› (fun e he => hsound ⟨e, he⟩) hok
  · rename_i uuid fault hc
    have hlooking : (Phase.looking uuid).Named := trivial
    exact h.enter hc rfl (fun _ => hlooking) rfl hok
  · rename_i uuid lookup fault hc
    split at hok
    all_goals
      cases hok
      exact h.phase hc rfl trivial rfl
  · rename_i entry hc
    cases hok
    exact h.phase hc rfl trivial rfl
  · rename_i removal hc
    obtain ⟨w1, hput, hok⟩ := bind_eq_ok.mp hok
    cases hok
    exact h.put hc hput
  · rename_i number hc
    cases hok
    exact h.phase hc rfl trivial rfl
  · cases hok

def World.init (n : ℕ) : World := ⟨[], none, false, 0, List.replicate n .idle⟩

lemma World.Reserving.init (n : ℕ) : (World.init n).Reserving where
  refs := by simp [World.init, countP_replicate, Phase.HoldsDb]
  opened := iff_of_true rfl rfl
  distinct i j e e' hi := by cases hi
  populated files hfiles := by cases hfiles
  marked files hfiles := by cases hfiles
  named p hp := by
    rw [eq_of_mem_replicate hp]
    trivial
  own c n' hn := by
    obtain ⟨p, hp, hpn⟩ := bind_eq_some_iff.mp hn
    rw [eq_of_mem_replicate (mem_of_getElem? hp)] at hpn
    cases hpn
  apart c c' n' hn := by
    obtain ⟨p, hp, hpn⟩ := bind_eq_some_iff.mp hn
    rw [eq_of_mem_replicate (mem_of_getElem? hp)] at hpn
    cases hpn

/-- A populated bit field has the numbers of live entries, which differ; one held by an installation is of none. -/
def World.NumbersReserved (w : World) : Prop :=
  (∀ files, w.db = some files → w.populated = true → Marked files w.file) ∧ Distinct w.file ∧
    ∀ c n, w.number? c = some n → Unused w.file n

theorem numbers_reserved (n : ℕ) (moves : List (ℕ × Act)) (w : World)
    (hsound : Runs.Along World.step World.Sound (World.init n) moves)
    (hrun : Runs.run World.step (World.init n) moves = .ok w) : w.NumbersReserved := by
  have h : w.Reserving := hsound.invariant hrun (World.Reserving.init n) fun _ _ _ hs hP hok => hs.step hP hok
  exact ⟨h.marked, h.distinct, fun c n hn => (h.own c n hn).2⟩

def toyProperty (b : UInt8) : Property := ⟨List.Vector.replicate 16 b, 1, 0, 0⟩

def toyCreate (c : ℕ) (b : UInt8) : List (ℕ × Act) :=
  [(c, .create (toyProperty b) none), (c, .reserve ⟨fun _ => none, fun _ => .done, fun _ => none⟩ none),
    (c, .prepare (zeroBytes 16) (zeroBytes 32) none)]

def toyCommit (c : ℕ) : ℕ × Act := (c, .commit (zeroBytes 16) none (fun _ => none) (fun _ => none) .done)

lemma sound_toyCreate (c : ℕ) (b : UInt8) (w : World) : ∀ move ∈ toyCreate c b, w.Sound move := by
  simp [toyCreate, World.Sound]

lemma sound_toyCommit (c : ℕ) (w : World) : w.Sound (toyCommit c) := by
  simp [toyCommit, World.Sound]

theorem numbers_reserved_two_installations : ∃ w,
    Runs.run World.step (World.init 2) (toyCreate 0 1 ++ toyCreate 1 2 ++ [toyCommit 0, toyCommit 1]) = .ok w ∧
    w.file.map Entry.fileNumber = [0, 1] ∧ w.NumbersReserved := by
  have hrun : TeeResult.error? (do
      let w ← Runs.run World.step (World.init 2) (toyCreate 0 1 ++ toyCreate 1 2 ++ [toyCommit 0, toyCommit 1])
      assert (w.file.map Entry.fileNumber = [0, 1])) = none := by decide +kernel
  obtain ⟨w, hw, hrun⟩ := ok_of_bind hrun
  refine ⟨w, hw, of_assert hrun, numbers_reserved 2 _ w (Runs.Along.of_mem fun move hmove w => ?_) hw⟩
  rw [mem_append, mem_append, mem_cons, mem_singleton] at hmove
  rcases hmove with (hmove | hmove) | rfl | rfl
  · exact sound_toyCreate 0 1 w move hmove
  · exact sound_toyCreate 1 2 w move hmove
  · exact sound_toyCommit 0 w
  · exact sound_toyCommit 1 w

def toyFailedDelete : List (ℕ × Act) :=
  toyCreate 0 1 ++ [toyCommit 0, (1, .delete (toyProperty 1).uuid none),
    (1, .deleteEnt (fun _ => none) (.lost .communication))] ++ toyCreate 2 2

theorem failed_delete_frees_number : ∃ w, Runs.run World.step (World.init 3) toyFailedDelete = .ok w ∧
    w.number? 2 = some 0 ∧ (∃ e ∈ w.file, e.Live ∧ e.fileNumber = 0) ∧ ¬ w.NumbersReserved := by
  have hrun : TeeResult.error? (do
      let w ← Runs.run World.step (World.init 3) toyFailedDelete
      assert (w.number? 2 = some 0)
      assert (∃ e ∈ w.file, e.Live ∧ e.fileNumber = 0)) = none := by decide +kernel
  obtain ⟨w, hw, hrun⟩ := ok_of_bind hrun
  obtain ⟨_, hnumber, hrun⟩ := ok_of_bind hrun
  replace hnumber := assert_eq_ok.mp hnumber
  obtain ⟨e, he, hlive, hzero⟩ := of_assert hrun
  exact ⟨w, hw, hnumber, ⟨e, he, hlive, hzero⟩, fun h => h.2.2 2 0 hnumber e he hlive hzero⟩

end Optee.Tadb
