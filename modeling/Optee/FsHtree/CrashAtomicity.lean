import Optee.FsHtree.RootHash
import Optee.FsHtree.ToyCrypto

/-! A crash in the middle of a round leaves the file as the last sync left it. -/

namespace Optee.FsHtree

open Lib.ByteStrings List TeeResult HostFile

variable {B : ℕ} {C : Crypto} {f : HostFile B} {ht ht₀ : Htree} {c c₀ : Contents B}

structure Found (C : Crypto) (f : HostFile B) (ht : Htree) (c : Contents B) : Prop where
  committed : Committed C f ht.version ht
  represents : Represents C f ht c
  headOther : ∃ head : HeadImage, f.read (.head (!ht.version)) = some head ∧
    head.counter.toNat + 1 = ht.head.counter.toNat

structure Settled (C : Crypto) (f : HostFile B) (ht : Htree) (c : Contents B) : Prop
    extends Found C f ht c where
  anchored : Anchored C f ht

lemma getIdxFromCounter_succ {c₀ c1 : UInt32} {v : Bool}
    (hv : v = decide ((if v then c1 else c₀) % 2 = 1))
    (h : (if v then c₀ else c1).toNat + 1 = (if v then c1 else c₀).toNat) :
    getIdxFromCounter c₀ c1 = some v := by
  unfold getIdxFromCounter
  cases v with
  | false =>
    simp only [Bool.false_eq_true, if_false] at hv h
    have h0 : c₀.toNat % 2 = 0 := by
      have : ¬ c₀ % 2 = 1 := by simpa using hv.symm
      rw [odd_iff] at this
      omega
    have h1 : ¬ c1 % 2 = 0 := by rw [even_iff]; omega
    have hgt : c₀ > c1 := by
      show c1 < c₀
      rw [UInt32.lt_iff_toNat_lt]
      omega
    rw [if_pos ((even_iff c₀).mpr h0), if_neg h1, if_pos hgt]
  | true =>
    simp only [if_true] at hv h
    have h1 : c1.toNat % 2 = 1 := by
      have : c1 % 2 = 1 := by simpa using hv.symm
      rwa [odd_iff] at this
    have h0 : c₀ % 2 = 0 := by rw [even_iff]; omega
    have h1' : ¬ c1 % 2 = 0 := by rw [even_iff]; omega
    have hgt : ¬ c₀ > c1 := by
      show ¬ c1 < c₀
      rw [UInt32.lt_iff_toNat_lt]
      omega
    rw [if_pos h0, if_neg h1', if_neg hgt]

lemma Found.picks_none (h : Found C f ht c) : Picks f none ht.version := by
  obtain ⟨head, hhead, hcount⟩ := h.headOther
  have hself := h.committed.head
  have hv : ht.version = decide (ht.head.counter % 2 = 1) := rfl
  cases hvers : ht.version with
  | false =>
    rw [hvers] at hhead hself hv
    exact ⟨ht.head, head, hself, hhead, getIdxFromCounter_succ hv hcount⟩
  | true =>
    rw [hvers] at hhead hself hv
    exact ⟨head, ht.head, hhead, hself, getIdxFromCounter_succ hv hcount⟩

lemma Found.reads_none (h : Found C f ht c) : Reads C f none ht.uuid c :=
  h.committed.reads h.picks_none h.represents

lemma Settled.reads_hash (h : Settled C f ht c) : Reads C f (some (rootHash ht.root)) ht.uuid c := by
  obtain ⟨head, henc, hp, hc, -⟩ := h.committed.opens h.anchored
  exact hc.reads hp (h.represents.withHead henc)

variable {us ws : List (HostWrite B)}

lemma Found.during (hs : Found C f ht₀ c₀) (hp : Pending C f ht₀ ht c ws)
    (hus : ∀ w ∈ us, w ∈ ws ++ syncWrites C (some ht.imeta.metadata) 1 ht.version ht.root) :
    Found C (f.writeAll us) ht₀ c₀ := by
  have hq := fun w hw => hp.quiet (hus w hw)
  obtain ⟨head, hr, hc⟩ := hs.headOther
  exact ⟨hs.committed.writeAll (fun w hw => ⟨(hq w hw).1, (hq w hw).2.1 _⟩),
    hs.represents.writeAll (fun w hw => (hq w hw).1),
    ⟨head, read_writeAll (fun w hw => (hq w hw).2.1 _) hr, hc⟩⟩

lemma Settled.during (hs : Settled C f ht₀ c₀) (hp : Pending C f ht₀ ht c ws)
    (hus : ∀ w ∈ us, w ∈ ws ++ syncWrites C (some ht.imeta.metadata) 1 ht.version ht.root)
    (hsame : rootHash (syncTree C (some ht.imeta.metadata) ht.root) = rootHash ht₀.root →
      rootImage (syncTree C (some ht.imeta.metadata) ht.root) = rootImage ht₀.root ∧
      (ht₀.version = true → ∃ n : NodeImage, f.read (.node 0 false) = some n ∧ n.hash = rootHash ht₀.root)) :
    Settled C (f.writeAll us) ht₀ c₀ := by
  have hq := fun w hw => hp.quiet (hus w hw)
  have hhead : ∀ {u : Bool} {x : HeadImage}, f.read (.head u) = some x →
      (f.writeAll us).read (.head u) = some x := fun hx =>
    read_writeAll (fun w hw => (hq w hw).2.1 _) hx
  refine ⟨hs.toFound.during hp hus, fun hv => ?_⟩
  obtain ⟨n, hn, hother⟩ := hs.anchored hv
  have hroot : ∀ w ∈ us, w.1 = .node 0 false →
      w = ⟨.node 0 false, rootImage (syncTree C (some ht.imeta.metadata) ht.root)⟩ := by
    intro w hw he
    have := (hq w hw).2.2 false he
    rwa [hv] at this
  rcases read_writeAll_or hroot hn with hn' | hn'
  · refine ⟨n, hn', fun hh => ?_⟩
    obtain ⟨he, head, hr, hother'⟩ := hother hh
    exact ⟨he, head, hhead hr, hother'⟩
  refine ⟨_, hn', fun hh => ?_⟩
  rw [rootImage_hash] at hh
  obtain ⟨he, hcarry⟩ := hsame hh
  obtain ⟨n', hn'', hh'⟩ := hcarry hv
  rw [hn] at hn''
  cases hn''
  obtain ⟨-, head, hr, hother'⟩ := hother hh'
  exact ⟨he, head, hhead hr, hother'⟩

lemma toNat_succ {n : UInt32} (h : n.toNat + 1 < 2 ^ 32) : (n + 1).toNat = n.toNat + 1 := by
  have : (n + 1).toNat = (n.toNat + 1) % 2 ^ 32 := UInt32.toNat_add n 1
  omega

section

variable (hs : Settled C f ht₀ c₀) (hp : Pending C f ht₀ ht c ws) (hC : C.Correct) (hd : ht.dirty = true) (hcount : ht₀.head.counter.toNat + 1 < 2 ^ 32) (iv : Bytes 16)
include hs hp hC hd hcount iv

lemma Settled.after
    (hsame : rootHash (ht.synced C iv).root = rootHash ht₀.root →
      rootImage (ht.synced C iv).root = rootImage ht₀.root ∧ ht.imeta = ht₀.imeta) :
    Settled C (f.writeAll (ws ++ ht.syncTrace C iv)) (ht.synced C iv) c := by
  have hold : Committed C (f.writeAll (ws ++ ht.syncTrace C iv)) ht₀.version ht₀ :=
    hs.committed.writeAll (fun _ => hp.keeps_old)
  refine ⟨⟨hp.committed hC hd iv, ?_, ht₀.head, ?_, ?_⟩, hp.anchored hs.committed iv hsame⟩
  · rw [HostFile.writeAll_append]
    exact hp.represents.synced iv
  · rw [synced_version, hp.version, Bool.not_not]
    exact hold.head
  · rw [synced_counter, hp.head, toNat_succ hcount]

lemma Settled.reads_old_after
    (hsame : rootHash (ht.synced C iv).root = rootHash ht₀.root →
      rootImage (ht.synced C iv).root = rootImage ht₀.root ∧ ht.imeta = ht₀.imeta ∧ c = c₀) :
    Reads C (f.writeAll (ws ++ ht.syncTrace C iv)) (some (rootHash ht₀.root)) ht₀.uuid c₀ := by
  have hnew := hs.after hp hC hd hcount iv (fun h => ⟨(hsame h).1, (hsame h).2.1⟩)
  by_cases hh : rootHash (ht.synced C iv).root = rootHash ht₀.root
  · rw [← hh, ← (hsame hh).2.2, ← hp.uuid]
    exact hnew.reads_hash
  have hold : Committed C (f.writeAll (ws ++ ht.syncTrace C iv)) ht₀.version ht₀ :=
    hs.committed.writeAll (fun _ => hp.keeps_old)
  refine hold.reads ?_ (hs.represents.writeAll (fun _ hw => (hp.keeps_old hw).1))
  have hroot := hold.read_root
  have hnewroot := hnew.committed.read_root
  rw [synced_version, hp.version] at hnewroot
  cases hv : ht₀.version with
  | false =>
    rw [hv] at hroot
    exact ⟨_, hroot, Or.inl ⟨rootImage_hash _, rfl⟩⟩
  | true =>
    rw [hv] at hroot hnewroot
    exact ⟨_, hnewroot, Or.inr ⟨by rwa [rootImage_hash], rfl, _, hroot, rootImage_hash _⟩⟩

end

variable {s s' s₀ : Session B} {r : Round B}

lemma Round.run_ok (h : r.run C s = .ok (s', ws)) : ∃ ht us ht' vs,
    runChanges C s.ht r.changes = .ok (ht, us) ∧
      syncToStorage C ht s.hash r.iv = .ok (ht', s'.hash, vs) ∧ ws = us ++ vs ∧
      s'.file = s.file.writeAll ws ∧ s'.ht = ht' := by
  simp only [Round.run, bind_eq_ok, Prod.exists, pure, Except.pure] at h
  obtain ⟨ht, us, hrun, ht', hash, vs, hsync, he⟩ := h
  cases he
  exact ⟨ht, us, ht', vs, hrun, hsync, rfl, rfl, rfl⟩

lemma Settled.round_cases (hs : Settled C s.file s.ht c) (hC : C.Correct)
    (hskip : NoSkip s.ht.nodes r.changes) (hrun : r.run C s = .ok (s', ws)) :
    (r.changes = [] ∧ s' = s ∧ ws = []) ∨
      ∃ ht us, runChanges C s.ht r.changes = .ok (ht, us) ∧ ht.dirty = true ∧
        Pending C s.file s.ht ht (c.apply r.changes) us ∧ ws = us ++ ht.syncTrace C r.iv ∧
        s' = ⟨s.file.writeAll ws, ht.synced C r.iv, rootHash (ht.synced C r.iv).root⟩ := by
  obtain ⟨ht, us, ht', vs, hch, hsync, rfl, hfile, rfl⟩ := Round.run_ok hrun
  have hp := (hs.committed.pending hs.represents).runChanges hC hs.committed.wf hskip hch
  by_cases hnil : r.changes = []
  · rw [hnil] at hch
    cases hch
    rw [syncToStorage_clean hs.committed.notDirty] at hsync
    cases s'
    cases hsync
    simp_all [HostFile.writeAll]
  · right
    have hd := runChanges_dirty hch hnil
    rw [hp.live.wf.syncToStorage_dirty hp.live.tidy hd, Except.ok.injEq, Prod.mk.injEq,
      Prod.mk.injEq] at hsync
    obtain ⟨hht, hh, rfl⟩ := hsync
    refine ⟨ht, us, hch, hd, hp, rfl, ?_⟩
    rw [← hfile, hh, hht]

lemma Settled.round (hs : Settled C s.file s.ht c) (hhash : s.hash = rootHash s.ht.root) (hC : C.Correct)
    (hskip : NoSkip s.ht.nodes r.changes) (hrun : r.run C s = .ok (s', ws))
    (hcount : s.ht.head.counter.toNat + 1 < 2 ^ 32)
    (hinj : C.digest (rootInput s'.ht) = C.digest (rootInput s.ht) → rootInput s'.ht = rootInput s.ht) :
    Settled C s'.file s'.ht (c.apply r.changes) ∧ s'.hash = rootHash s'.ht.root ∧
      s'.ht.uuid = s.ht.uuid ∧ s'.ht.head.counter.toNat ≤ s.ht.head.counter.toNat + 1 := by
  rcases hs.round_cases hC hskip hrun with ⟨hnil, rfl, -⟩ | ⟨ht, us, hch, hd, hp, rfl, rfl⟩
  · rw [hnil]
    exact ⟨hs, hhash, rfl, Nat.le_succ _⟩
  · refine ⟨hs.after hp hC hd hcount r.iv (fun hh => ?_), rfl, hp.uuid, ?_⟩
    · obtain ⟨-, -, himage, himeta, -⟩ := hs.committed.same_hash hs.represents hC hskip hch hd r.iv hinj hh
      exact ⟨himage, himeta⟩
    · rw [synced_counter, hp.head, toNat_succ hcount]

def Reached (C : Crypto) (s₀ : Session B) (rs : List (Round B)) (s : Session B) : Prop :=
  ∃ k, runRounds C s₀ (rs.take k) = .ok s

def rootInputs (C : Crypto) (s₀ : Session B) (rs : List (Round B)) : Set (List UInt8) :=
  {x | ∃ s, Reached C s₀ rs s ∧ rootInput s.ht = x}

variable {rs : List (Round B)} {uuid : Option Uuid}

lemma runRounds_cons : runRounds C s₀ (r :: rs) = .ok s ↔
    ∃ s1 ws, r.run C s₀ = .ok (s1, ws) ∧ runRounds C s1 rs = .ok s := by
  simp [runRounds, bind_eq_ok, Prod.exists]

lemma rootInputs_step (h : r.run C s₀ = .ok (s, ws)) : rootInputs C s rs ⊆ rootInputs C s₀ (r :: rs) := by
  rintro x ⟨s', ⟨k, hk⟩, rfl⟩
  exact ⟨s', ⟨k + 1, runRounds_cons.mpr ⟨s, ws, h, hk⟩⟩, rfl⟩

lemma mem_rootInputs_start (rs : List (Round B)) : rootInput s₀.ht ∈ rootInputs C s₀ rs :=
  ⟨s₀, ⟨0, rfl⟩, rfl⟩

lemma Settled.run (hs : Settled C s₀.file s₀.ht c) (hhash : s₀.hash = rootHash s₀.ht.root) (hC : C.Correct)
    (hskip : NoSkip c.nodes (allChanges rs)) (hinj : Set.InjOn C.digest (rootInputs C s₀ rs))
    (hcount : s₀.ht.head.counter.toNat + rs.length < 2 ^ 32) (hrun : runRounds C s₀ rs = .ok s) :
    Settled C s.file s.ht (c.apply (allChanges rs)) ∧ s.hash = rootHash s.ht.root ∧
      s.ht.uuid = s₀.ht.uuid ∧ s.ht.head.counter.toNat ≤ s₀.ht.head.counter.toNat + rs.length := by
  induction rs generalizing s₀ c with
  | nil =>
    cases hrun
    exact ⟨hs, hhash, rfl, le_rfl⟩
  | cons r rs ih =>
    obtain ⟨s1, ws, hrun1, hrun2⟩ := runRounds_cons.mp hrun
    simp only [allChanges, flatMap_cons] at hskip ⊢
    obtain ⟨hskip1, hskip2⟩ := noSkip_append.mp hskip
    rw [length_cons] at hcount
    have hmem : rootInput s1.ht ∈ rootInputs C s₀ (r :: rs) :=
      rootInputs_step hrun1 (mem_rootInputs_start rs)
    obtain ⟨h1, hh1, hu1, hc1⟩ := hs.round hhash hC (by rwa [hs.represents.nodes]) hrun1 (by omega)
      (fun he => hinj hmem (mem_rootInputs_start _) he)
    obtain ⟨h2, hh2, hu2, hc2⟩ := ih h1 hh1 hskip2 (hinj.mono (rootInputs_step hrun1)) (by omega) hrun2
    rw [apply_append]
    exact ⟨h2, hh2, hu2.trans hu1, by rw [length_cons]; omega⟩

lemma Settled.create (hC : C.Correct) {fek iv : Bytes 16} (h : Session.create C uuid fek iv = .ok s)
    (hzero : C.digest (rootInput s.ht) ≠ zeroBytes 32) :
    Settled C s.file s.ht Contents.new ∧ s.hash = rootHash s.ht.root ∧ s.ht.uuid = uuid ∧
      s.ht.head.counter.toNat = 1 := by
  obtain rfl := (Except.ok.inj h).symm
  have hc' := committed_newHtree (B := B) hC uuid fek iv
  exact ⟨⟨⟨hc', ⟨rfl, rfl, by simp [Contents.new]⟩, ⟨HeadImage.zero, read_writeAll_last _ _ _, rfl⟩⟩,
    anchored_newHtree hC uuid fek iv hzero⟩, rfl, rfl, rfl⟩

/-- A round that leaves no root of the committed hash next to a head that does not belong to it. -/
def Round.Safe (s : Session B) (r : Round B) : Prop :=
  r.changes = [] ∨ r.changes.any isWrite = true ∨
    finalMetadata s.ht.imeta.metadata r.changes ≠ s.ht.imeta.metadata ∨ s.ht.version = false ∨
    ∃ n : NodeImage, s.file.read (.node 0 false) = some n ∧ n.hash = s.hash

lemma runRounds_append (h : runRounds C s₀ rs = .ok s) (hr : r.run C s = .ok (s', ws)) :
    runRounds C s₀ (rs ++ [r]) = .ok s' := by
  induction rs generalizing s₀ with
  | nil =>
    cases h
    exact runRounds_cons.mpr ⟨s', ws, hr, rfl⟩
  | cons a rs ih =>
    obtain ⟨s1, us, h1, h2⟩ := runRounds_cons.mp h
    exact runRounds_cons.mpr ⟨s1, us, h1, ih h2⟩

lemma reached_single (h : r.run C s₀ = .ok (s', ws)) {s1 : Session B} : Reached C s₀ [r] s1 ↔ s1 = s₀ ∨ s1 = s' := by
  have hr : runRounds C s₀ [r] = .ok s' := runRounds_cons.mpr ⟨s', ws, h, rfl⟩
  constructor
  · rintro ⟨k, hk⟩
    cases k with
    | zero => cases hk; exact Or.inl rfl
    | succ k =>
      rw [take_of_length_le (by simp), hr] at hk
      cases hk
      exact Or.inr rfl
  · rintro (rfl | rfl)
    · exact ⟨0, rfl⟩
    · exact ⟨1, hr⟩

lemma injOn_rootInputs_single (h : r.run C s₀ = .ok (s', ws))
    (hne : C.digest (rootInput s₀.ht) = C.digest (rootInput s'.ht) → rootInput s₀.ht = rootInput s'.ht) :
    Set.InjOn C.digest (rootInputs C s₀ [r]) := by
  rintro _ ⟨s1, h1, rfl⟩ _ ⟨s2, h2, rfl⟩ he
  rcases (reached_single h).mp h1 with rfl | rfl <;> rcases (reached_single h).mp h2 with rfl | rfl
  · rfl
  · exact hne he
  · exact (hne he.symm).symm
  · rfl

/-- Crash atomicity. `rounds` lead from a new file to `s`; round `r` then issues the writes `ws`. -/
theorem crash_atomic_commit (hC : C.Correct) (uuid : Option Uuid) (fek iv : Bytes 16)
    (rounds : List (Round B)) (r : Round B) (s₀ s s' : Session B) (ws : List (HostWrite B))
    (hcreate : Session.create C uuid fek iv = .ok s₀) (hlen : rounds.length < 2 ^ 32 - 2)
    (hrun : runRounds C s₀ rounds = .ok s) (hlast : r.run C s = .ok (s', ws))
    (hskip : NoSkip 1 (allChanges (rounds ++ [r])))
    (hinj : Set.InjOn C.digest (rootInputs C s₀ (rounds ++ [r])))
    (hzero : C.digest (rootInput s₀.ht) ≠ zeroBytes 32) :
    (r.Safe s → ∀ us, us <+: ws → Reads C (s.file.writeAll us) (some s.hash) uuid
      (Contents.new.apply (allChanges rounds))) ∧
    (∀ us, us <+: ws → us ≠ ws → Reads C (s.file.writeAll us) none uuid
      (Contents.new.apply (allChanges rounds))) ∧
    Reads C (s.file.writeAll ws) none uuid (Contents.new.apply (allChanges (rounds ++ [r]))) ∧
    Reads C (s.file.writeAll ws) (some s'.hash) uuid
      (Contents.new.apply (allChanges (rounds ++ [r]))) := by
  obtain ⟨hs₀, hh₀, hu₀, hc₀⟩ := Settled.create hC hcreate hzero
  have happend : allChanges (rounds ++ [r]) = allChanges rounds ++ r.changes := by
    simp [allChanges]
  rw [happend] at hskip ⊢
  obtain ⟨hskip₁, hskip₂⟩ := noSkip_append (c := Contents.new).mp hskip
  have hsub : rootInputs C s₀ rounds ⊆ rootInputs C s₀ (rounds ++ [r]) := by
    rintro x ⟨s₁, ⟨k, hk⟩, rfl⟩
    refine ⟨s₁, ⟨min k rounds.length, ?_⟩, rfl⟩
    rw [take_append_of_le_length (min_le_right _ _), ← take_take, take_length]
    exact hk
  obtain ⟨hs, hh, hu, hc⟩ := hs₀.run hh₀ hC hskip₁ (hinj.mono hsub) (by omega) hrun
  rw [apply_append]
  rw [← hs.represents.nodes] at hskip₂
  rw [← hu₀, ← hu, hh]
  have hmem : ∀ s₁ rs, rs <+: rounds ++ [r] → runRounds C s₀ rs = .ok s₁ →
      rootInput s₁.ht ∈ rootInputs C s₀ (rounds ++ [r]) := by
    intro s₁ rs hrs hk
    exact ⟨s₁, ⟨rs.length, by rwa [← prefix_iff_eq_take.mp hrs]⟩, rfl⟩
  have hinj' : C.digest (rootInput s'.ht) = C.digest (rootInput s.ht) → rootInput s'.ht = rootInput s.ht :=
    fun he => hinj (hmem s' _ prefix_rfl (runRounds_append hrun hlast))
      (hmem s rounds (prefix_append _ _) hrun) he
  rcases hs.round_cases hC hskip₂ hlast with ⟨hnil, rfl, rfl⟩ | ⟨ht, us, hch, hd, hp, rfl, rfl⟩
  · rw [hnil, hh]
    refine ⟨fun _ us hus => ?_, fun us hus hne => absurd (prefix_nil.mp hus) hne, hs.reads_none,
      hs.reads_hash⟩
    rw [prefix_nil.mp hus]
    exact hs.reads_hash
  · have hsame := hs.committed.same_hash hs.represents hC hskip₂ hch hd r.iv hinj'
    have hafter := hs.after hp hC hd (by omega) r.iv
      (fun he => ⟨(hsame he).2.2.1, (hsame he).2.2.2.1⟩)
    have hcut : ∀ vs, vs <+: us ++ ht.syncTrace C r.iv → vs ≠ us ++ ht.syncTrace C r.iv →
        ∀ w ∈ vs, w ∈ us ++ syncWrites C (some ht.imeta.metadata) 1 ht.version ht.root := by
      intro vs hvs hne w hw
      rw [Htree.syncTrace, ← append_assoc, prefix_concat_iff] at hvs
      rw [Htree.syncTrace, ← append_assoc] at hne
      exact (hvs.resolve_left hne).subset hw
    refine ⟨fun hsafe vs hvs => ?_, fun vs hvs hne => (hs.toFound.during hp (hcut vs hvs hne)).reads_none,
      hp.uuid ▸ hafter.reads_none, hp.uuid ▸ hafter.reads_hash⟩
    by_cases hfull : vs = us ++ ht.syncTrace C r.iv
    · rw [hfull]
      exact hs.reads_old_after hp hC hd (by omega) r.iv (fun he => (hsame he).2.2)
    refine (hs.during hp (hcut vs hvs hfull) (fun he => ?_)).reads_hash
    obtain ⟨hno, hfinal, himage, -, -⟩ := hsame he
    refine ⟨himage, fun hv => ?_⟩
    rcases hsafe with hnil | hw | hm | hv' | hcarry
    · rw [hnil] at hch
      cases hch
      rw [hs.committed.notDirty] at hd
      cases hd
    · rw [hno] at hw
      cases hw
    · exact absurd hfinal hm
    · rw [hv] at hv'
      cases hv'
    · rwa [hh] at hcarry

def toySession : Session 144 :=
  (Session.create toyCrypto none (zeroBytes 16) (zeroBytes 16)).get (by decide +kernel)

def toyRound (cs : List (Change 144)) : Round 144 := ⟨cs, zeroBytes 16⟩

theorem crash_atomic_commit_first_block :
    ∃ s' ws, (toyRound [.write 0 (zeroBytes 144) (zeroBytes 16)]).run toyCrypto toySession = .ok (s', ws) ∧
      ∀ us, us <+: ws → Reads toyCrypto (toySession.file.writeAll us) (some toySession.hash) none
        Contents.new := by
  have hrun := eq_ok_get
    ((toyRound [.write 0 (zeroBytes 144) (zeroBytes 16)]).run toyCrypto toySession) (by decide +kernel)
  refine ⟨_, _, hrun, ?_⟩
  have hinj := injOn_rootInputs_single hrun (fun he => absurd he (by decide +kernel))
  exact (crash_atomic_commit toyCrypto_correct none _ _ [] _ toySession _ _ _ (eq_ok_get _ _) (by decide) rfl hrun
    ⟨by decide, trivial⟩ hinj (by decide +kernel)).1 (Or.inr (Or.inl rfl))

theorem crash_in_unchanged_round :
    ∃ s' ws us, (toyRound [.setMeta ⟨0⟩]).run toyCrypto toySession = .ok (s', ws) ∧
      NoSkip 1 (allChanges [toyRound [.setMeta ⟨0⟩]]) ∧
      Set.InjOn toyCrypto.digest (rootInputs toyCrypto toySession [toyRound [.setMeta ⟨0⟩]]) ∧
      toyCrypto.digest (rootInput toySession.ht) ≠ zeroBytes 32 ∧ us <+: ws ∧
      ¬ Reads toyCrypto (toySession.file.writeAll us) (some toySession.hash) none Contents.new := by
  have hrun := eq_ok_get
    ((toyRound [.setMeta ⟨0⟩]).run toyCrypto toySession) (by decide +kernel)
  refine ⟨_, _, _, hrun, trivial, injOn_rootInputs_single hrun (fun _ => by decide +kernel),
    by decide +kernel, take_prefix 1 _, ?_⟩
  rintro ⟨ht, hopen, -⟩
  exact ne_ok_of_error? (e := .corruptObject) (by decide +kernel) ht hopen

end Optee.FsHtree
