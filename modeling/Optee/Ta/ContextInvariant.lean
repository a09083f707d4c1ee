import Optee.Lib.Threads
import Optee.Ta.Contexts

/-! What the threads rely on when they use contexts through sessions, and what a move has to meet to leave it so. -/

namespace Optee.Ta.Contexts

open Lib List Threads

variable {t s c : ℕ} {pc pc' : Pc}

def Pc.session : Pc → Option ℕ
  | .idle | .destroying _ => none
  | .initializing s _ | .missing s _ | .loading s _ | .discarding s _ | .failed s | .opened s | .entering s _ | .put s _
  | .invoking s | .calling s _ | .dying s | .tearing s _ | .torn s _ | .clearing s | .returning s | .closing s | .leaving s _
  | .unlinking s _ _ | .left s _ | .releasing s _ => some s

def Pc.opens (s : ℕ) : Pc → Prop
  | .initializing s' _ | .missing s' _ | .loading s' _ | .discarding s' _ | .failed s' | .opened s' | .entering s' _
  | .put s' _ => s' = s
  | _ => False

instance (s : ℕ) (pc : Pc) : Decidable (pc.opens s) := by
  cases pc <;> unfold Pc.opens <;> infer_instance

def Pc.finishes (c : ℕ) : Pc → Prop
  | .discarding _ c' | .torn _ c' | .destroying c' => c' = c
  | _ => False

def Pc.covers : Pc → Prop
  | .loading _ _ | .torn _ _ | .clearing _ => True
  | _ => False

def Pc.releases : Pc → Prop
  | .left _ _ | .releasing _ _ => True
  | _ => False

namespace Tas

variable {st st' : Tas}

def status (st : Tas) (c : ℕ) : Option (Bool × Bool × Bool × ℕ) :=
  st.ctxes[c]?.map fun ctx => (ctx.listed, ctx.destroyed, ctx.initializing, if ctx.initializing then ctx.refCount else 0)

def Ready (st : Tas) (c : ℕ) : Prop := st.status c = some (true, false, false, 0)

def Loads (st : Tas) (c : ℕ) : Prop := st.status c = some (true, false, true, 1)

def Gone (st : Tas) (c : ℕ) : Prop := ∃ r, st.status c = some (false, false, r)

def Dead (st : Tas) (c : ℕ) : Prop := ∃ r, st.status c = some (false, true, r)

def Has (st : Tas) (s : ℕ) (P : TaSession → Prop) : Prop := ∃ x, st.sessions[s]? = some x ∧ P x

def Listed (st : Tas) (s : ℕ) : Prop := st.Has s fun x => x.listed = true

def Bare (st : Tas) (s : ℕ) : Prop := st.Has s fun x => x.listed = true ∧ x.ctx = none

def Uses (st : Tas) (s c : ℕ) : Prop := st.Has s fun x => x.listed = true ∧ x.ctx = some c ∧ x.given = some c

def Locks (st : Tas) (t s : ℕ) : Prop := st.Has s fun x => x.listed = true ∧ x.lock = some t

def Owes (st : Tas) (s c : ℕ) : Prop := st.Has s fun x => x.listed = false ∧ x.given = some c

def Fits (st : Tas) (t : ℕ) : Pc → Prop
  | .idle => True
  | .initializing s _ | .missing s _ => st.Bare s ∧ st.Has s fun x => x.given = none
  | .failed s => st.Bare s
  | .loading s c => st.Uses s c ∧ st.Loads c
  | .discarding s c => st.Bare s ∧ st.Gone c
  | .opened s | .put s _ => st.Listed s
  | .entering s c => st.Uses s c ∧ st.Ready c
  | .invoking s | .returning s | .closing s => st.Locks t s
  | .clearing s => st.Locks t s ∧ ∃ c, st.Uses s c ∧ st.Dead c
  | .dying s => st.Locks t s ∧ ∃ c, st.Uses s c ∧ st.Ready c
  | .calling s c | .leaving s c | .tearing s (some c) | .unlinking s (some c) _ => st.Locks t s ∧ st.Uses s c ∧ st.Ready c
  | .tearing _ none => False
  | .unlinking s none _ => st.Locks t s ∧ st.Bare s
  | .torn s c => st.Locks t s ∧ st.Uses s c ∧ st.Gone c
  | .left s c | .releasing s c => st.Owes s c ∧ st.Ready c
  | .destroying c => st.Gone c

def Cares (st : Tas) (c : ℕ) (pc : Pc) : Prop :=
  pc.hand = some c ∨ ∃ s, (pc = .dying s ∨ pc = .clearing s) ∧ st.Uses s c

lemma Has.congr {P : TaSession → Prop} (h : st.Has s P) (hs : st'.sessions[s]? = st.sessions[s]?) : st'.Has s P := by
  unfold Has
  rw [hs]
  exact h

lemma Gone.congr (h : st.Gone c) (hc : st'.status c = st.status c) : st'.Gone c := by
  unfold Gone
  rw [hc]
  exact h

lemma Dead.congr (h : st.Dead c) (hc : st'.status c = st.status c) : st'.Dead c := by
  unfold Dead
  rw [hc]
  exact h

def Alike (st st' : Tas) (s : ℕ) (pc : Pc) : Prop := ∀ x, st.sessions[s]? = some x → ∃ x', st'.sessions[s]? = some x' ∧
  x'.listed = x.listed ∧ x'.lock = x.lock ∧ x'.given = x.given ∧
  (x'.ctx = x.ctx ∨ x'.ctx = none ∧ ∀ c, x.ctx = some c → ¬ st.Cares c pc)

lemma Alike.of_eq (h : st'.sessions[s]? = st.sessions[s]?) : Alike st st' s pc := fun x hx =>
  ⟨x, h.trans hx, rfl, rfl, rfl, .inl rfl⟩

lemma Has.alike {P : Bool → Option ℕ → Option ℕ → Prop} (h : st.Has s fun x => P x.listed x.lock x.given)
    (ha : Alike st st' s pc) : st'.Has s fun x => P x.listed x.lock x.given := by
  obtain ⟨x, hx, hP⟩ := h
  obtain ⟨x', hx', hl, hk, hg, -⟩ := ha x hx
  exact ⟨x', hx', by dsimp only; rw [hl, hk, hg]; exact hP⟩

lemma Bare.alike (h : st.Bare s) (ha : Alike st st' s pc) : st'.Bare s := by
  obtain ⟨x, hx, hl, hc⟩ := h
  obtain ⟨x', hx', hl', -, -, hc' | ⟨hc', -⟩⟩ := ha x hx
  · exact ⟨x', hx', hl'.trans hl, hc'.trans hc⟩
  · exact ⟨x', hx', hl'.trans hl, hc'⟩

lemma Uses.alike (h : st.Uses s c) (ha : Alike st st' s pc) (hcares : st.Cares c pc) : st'.Uses s c := by
  obtain ⟨x, hx, hl, hc, hg⟩ := h
  obtain ⟨x', hx', hl', -, hg', hc' | ⟨-, hnot⟩⟩ := ha x hx
  · exact ⟨x', hx', hl'.trans hl, hc'.trans hc, hg'.trans hg⟩
  · exact absurd hcares (hnot c hc)

lemma Listed.alike (h : st.Listed s) (ha : Alike st st' s pc) : st'.Listed s :=
  Has.alike (P := fun l _ _ => l = true) h ha

lemma Locks.alike (h : st.Locks t s) (ha : Alike st st' s pc) : st'.Locks t s :=
  Has.alike (P := fun l k _ => l = true ∧ k = some t) h ha

lemma Owes.alike (h : st.Owes s c) (ha : Alike st st' s pc) : st'.Owes s c :=
  Has.alike (P := fun l _ g => l = false ∧ g = some c) h ha

lemma Fits.frame (h : st.Fits t pc) (hs : ∀ s, pc.session = some s → Alike st st' s pc)
    (hc : ∀ c, st.Cares c pc → st'.status c = st.status c) : st'.Fits t pc := by
  cases pc with
  | idle => trivial
  | initializing s _ | missing s _ =>
    exact ⟨h.1.alike (hs s rfl), Has.alike (P := fun _ _ g => g = none) h.2 (hs s rfl)⟩
  | failed s => exact Bare.alike h (hs s rfl)
  | loading s c | entering s c => exact ⟨h.1.alike (hs s rfl) (.inl rfl), (hc c (.inl rfl)).trans h.2⟩
  | discarding s c => exact ⟨h.1.alike (hs s rfl), h.2.congr (hc c (.inl rfl))⟩
  | opened s | put s _ => exact Listed.alike h (hs s rfl)
  | invoking s | returning s | closing s => exact Locks.alike h (hs s rfl)
  | clearing s =>
    obtain ⟨hl, c, hu, hd⟩ := h
    have hcares : st.Cares c (.clearing s) := .inr ⟨s, .inr rfl, hu⟩
    exact ⟨hl.alike (hs s rfl), c, hu.alike (hs s rfl) hcares, hd.congr (hc c hcares)⟩
  | dying s =>
    obtain ⟨hl, c, hu, hr⟩ := h
    have hcares : st.Cares c (.dying s) := .inr ⟨s, .inl rfl, hu⟩
    exact ⟨hl.alike (hs s rfl), c, hu.alike (hs s rfl) hcares, (hc c hcares).trans hr⟩
  | calling s c | leaving s c =>
    exact ⟨h.1.alike (hs s rfl), h.2.1.alike (hs s rfl) (.inl rfl), (hc c (.inl rfl)).trans h.2.2⟩
  | tearing s oc =>
    cases oc with
    | none => exact h
    | some c => exact ⟨h.1.alike (hs s rfl), h.2.1.alike (hs s rfl) (.inl rfl), (hc c (.inl rfl)).trans h.2.2⟩
  | unlinking s oc _ =>
    cases oc with
    | none => exact ⟨h.1.alike (hs s rfl), h.2.alike (hs s rfl)⟩
    | some c => exact ⟨h.1.alike (hs s rfl), h.2.1.alike (hs s rfl) (.inl rfl), (hc c (.inl rfl)).trans h.2.2⟩
  | torn s c => exact ⟨h.1.alike (hs s rfl), h.2.1.alike (hs s rfl) (.inl rfl), h.2.2.congr (hc c (.inl rfl))⟩
  | left s c | releasing s c => exact ⟨h.1.alike (hs s rfl), (hc c (.inl rfl)).trans h.2⟩
  | destroying c => exact Gone.congr h (hc c (.inl rfl))

def count (st : Tas) (c : ℕ) : ℕ := (st.sessions.map fun x => if x.given = some c then 1 else 0).sum

def UsesWell (st : Tas) (s : ℕ) : Prop := ∀ x c, st.sessions[s]? = some x → x.listed = true → x.ctx = some c →
  x.given = some c ∧ (st.Ready c ∨ ∃ pc ∈ st.pcs, pc = .loading s c ∨ pc = .torn s c ∨ pc = .clearing s)

def OwesWell (st : Tas) (s : ℕ) : Prop := ∀ x c, st.sessions[s]? = some x → x.given = some c →
  (∃ r, st.status c = some (true, r)) → (x.listed = true ∧ x.ctx = some c) ∨ ∃ pc ∈ st.pcs, pc = .left s c ∨ pc = .releasing s c

structure Sound (st : Tas) : Prop where
  fits : ∀ (t : ℕ) (pc : Pc), st.pcs[t]? = some pc → st.Fits t pc
  apart : ∀ (t t' : ℕ) (pc pc' : Pc) (s : ℕ), st.pcs[t]? = some pc → st.pcs[t']? = some pc' → pc.session = some s →
    pc'.session = some s → t = t'
  finish : ∀ (t t' : ℕ) (pc pc' : Pc) (c : ℕ), st.pcs[t]? = some pc → st.pcs[t']? = some pc' → pc.finishes c →
    pc'.finishes c → t = t'
  uses : ∀ s, st.UsesWell s
  owes : ∀ s, st.OwesWell s
  counts : ∀ (c : ℕ) (y : TaCtx), st.ctxes[c]? = some y → y.destroyed = false → y.refCount = st.count c
  live : ∀ y ∈ st.ctxes, y.listed = true → y.destroyed = false
  bound : ∀ x ∈ st.sessions, ∀ c, x.given = some c → c < st.ctxes.length

structure Moves (st st' : Tas) (t s : ℕ) (pc pc' : Pc) : Prop where
  pcs : st'.pcs = st.pcs.set t pc'
  inside : ∀ k, pc.session = some k → k = s
  inside' : ∀ k, pc'.session = some k → k = s
  free : pc.session = some s ∨ ∀ pc₁ ∈ st.pcs, pc₁.session ≠ some s
  sessions : ∀ k, k ≠ s → st'.sessions[k]? = st.sessions[k]?
  cares : ∀ (t₁ : ℕ) (pc₁ : Pc), t₁ ≠ t → st.pcs[t₁]? = some pc₁ → ∀ c, st.Cares c pc₁ → st'.status c = st.status c
  fits : st'.Fits t pc'
  finish : ∀ c, pc'.finishes c → pc.finishes c ∨ ∀ pc₁ ∈ st.pcs, ¬ pc₁.finishes c
  uses : st'.UsesWell s
  owes : st'.OwesWell s
  ready : ∀ c, st.Ready c → st'.Ready c ∨ ∀ k, k ≠ s → ¬ st.Uses k c
  listed : ∀ c r, st'.status c = some (true, r) → (∃ r', st.status c = some (true, r')) ∨ c = st.ctxes.length
  counts : ∀ (c : ℕ) (y : TaCtx), st'.ctxes[c]? = some y → y.destroyed = false → y.refCount = st'.count c
  live : ∀ y ∈ st'.ctxes, y.listed = true → y.destroyed = false
  length : st.ctxes.length ≤ st'.ctxes.length
  bound : ∀ x c, st'.sessions[s]? = some x → x.given = some c → c < st'.ctxes.length

lemma Sound.move (pc' : Pc) (h : st.Sound) (ht : st.pcs[t]? = some pc) (hm : Moves st st' t s pc pc') : st'.Sound := by
  -- No other thread is in the session `s`.
  have hout : ∀ (t1 : ℕ) (pc1 : Pc), t1 ≠ t → st.pcs[t1]? = some pc1 → pc1.session ≠ some s := by
    intro t1 pc1 hne h1 hs
    obtain hpc | hfree := hm.free
    · exact hne (h.apart _ _ _ _ s h1 ht hs hpc)
    · exact hfree pc1 (mem_of_getElem? h1) hs
  -- The thread of another session stays where it is.
  have hkeep : ∀ k, k ≠ s → ∀ pc1 ∈ st.pcs, pc1.session = some k → pc1 ∈ st'.pcs := fun k hk pc1 hpc1 hsess =>
    hm.pcs ▸ mem_set_of_ne ht hpc1 fun he => hk (hm.inside k (he ▸ hsess))
  refine ⟨fun t1 pc1 h1 => ?_, fun t1 t2 pc1 pc2 k h1 h2 hs1 hs2 => ?_, fun t1 t2 pc1 pc2 c h1 h2 hf1 hf2 => ?_, fun k => ?_,
    fun k => ?_, hm.counts, hm.live, fun x hx c hc => ?_⟩
  · rw [hm.pcs] at h1
    obtain ⟨rfl, rfl⟩ | ⟨hne, g1⟩ := set_cases ht h1
    · exact hm.fits
    · refine (h.fits t1 pc1 g1).frame (fun k hk => .of_eq (hm.sessions k ?_)) (hm.cares t1 pc1 hne g1)
      rintro rfl
      exact hout t1 pc1 hne g1 hk
  · rw [hm.pcs] at h1 h2
    exact eq_of_set (fun i j a b => h.apart i j a b k) ht (fun hs => hm.inside' k hs ▸ hm.free) h1 h2 hs1 hs2
  · rw [hm.pcs] at h1 h2
    exact eq_of_set (fun i j a b => h.finish i j a b c) ht (hm.finish c) h1 h2 hf1 hf2
  · by_cases hk : k = s
    · exact hk ▸ hm.uses
    · intro x c hx hl hc
      rw [hm.sessions k hk] at hx
      obtain ⟨hgiven, huse⟩ := h.uses k x c hx hl hc
      refine ⟨hgiven, ?_⟩
      obtain hready | ⟨pc1, hpc1, hat⟩ := huse
      · exact .inl ((hm.ready c hready).resolve_right fun hnot => hnot k hk ⟨x, hx, hl, hc, hgiven⟩)
      · exact .inr ⟨pc1, hkeep k hk pc1 hpc1 (by obtain rfl | rfl | rfl := hat <;> rfl), hat⟩
  · by_cases hk : k = s
    · exact hk ▸ hm.owes
    · intro x c hx hgiven ⟨r, hlisted⟩
      rw [hm.sessions k hk] at hx
      have hlt := h.bound x (mem_of_getElem? hx) c hgiven
      have hlisted := (hm.listed c r hlisted).resolve_right (by omega)
      obtain hat | ⟨pc1, hpc1, hat⟩ := h.owes k x c hx hgiven hlisted
      · exact .inl hat
      · exact .inr ⟨pc1, hkeep k hk pc1 hpc1 (by obtain rfl | rfl := hat <;> rfl), hat⟩
  · obtain ⟨k, hk⟩ := mem_iff_getElem?.mp hx
    by_cases hks : k = s
    · exact hm.bound x c (hks ▸ hk) hc
    · rw [hm.sessions k hks] at hk
      exact Nat.lt_of_lt_of_le (h.bound x (mem_of_getElem? hk) c hc) hm.length

end Tas

end Optee.Ta.Contexts
