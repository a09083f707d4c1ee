import Optee.Rpc.Coverage

/-! Lists of pages in normal world memory. -/

namespace Optee.Rpc

variable {cfg : Config} {reply : Reply} {mem : UInt64 → ℕ → UInt64} {buffer : UInt64} {pages : List UInt64} {m : Mobj}

/-- The `k`-th page of a list, in a memory of pages with 512 words each. -/
def listPage (mem : UInt64 → ℕ → UInt64) (buffer : UInt64) : ℕ → UInt64
  | 0 => buffer
  | k + 1 => mem (listPage mem buffer k) 511

def Reply.reading (reply : Reply) (mem : UInt64 → ℕ → UInt64) (buffer : UInt64) : Reply :=
  { reply with words := fun k => mem (listPage mem buffer (k / 512)) (k % 512) }

/-- `msg_param_mobj_from_noncontig`; without `map_buffer` the object gets no address. -/
def mobjFromNoncontig (cfg : Config) (reply : Reply) (mapBuffer : Bool) : Option Mobj :=
  msgParamMobjFromNoncontig cfg (if mapBuffer then reply else { reply with mm := some 0 })

def Mappable (cfg : Config) (page : UInt64) : Prop :=
  page &&& smallPageMask = 0 ∧ corePbufIsNonSec cfg page smallPageSize = true

structure Decodes (cfg : Config) (mem : UInt64 → ℕ → UInt64) (buffer : UInt64) (n : ℕ) (pages : List UInt64) : Prop where
  length : pages.length = n
  entry : ∀ i < n, pages[i]? = some (mem (listPage mem buffer (i / 511)) (i % 511))
  aligned : ∀ page ∈ pages, page &&& smallPageMask = 0
  mappable : ∀ i < n, Mappable cfg (listPage mem buffer (i / 511))

def Cursor.At (c : Cursor) (k i : ℕ) : Prop := c.word = 512 * k + c.entry ∧ c.entry ≤ 511 ∧ 511 * k + c.entry = i

lemma mappable_of_alloc {mm : Option ℕ} {page : UInt64} (h : mobjMappedShmAlloc cfg mm [page] 0 0 = some m) :
    Mappable cfg page := by
  obtain ⟨-, -, hall, -⟩ := mobjMappedShmAlloc_eq_some h
  exact hall page (List.mem_singleton_self page)

lemma settle_spec {c c' : Cursor} {k i : ℕ} (hc : c.At k i) (h : c.settle cfg reply = some c') :
    c'.At (i / 511) i ∧ c'.entry < 511 ∧ (i / 511 = k ∨ i / 511 = k + 1 ∧ Mappable cfg (reply.words (512 * k + 511))) := by
  obtain ⟨hword, hentry, hi⟩ := hc
  rw [Cursor.settle] at h
  split at h
  · next hlast =>
    dsimp only at h
    split at h
    · cases h
    obtain ⟨m, hm, rfl⟩ := Option.map_eq_some_iff.mp h
    have hk : i / 511 = k + 1 := by omega
    rw [hword, hlast] at hm
    exact ⟨⟨show c.word + 1 = _ + 0 by omega, Nat.zero_le _, show _ + 0 = i by omega⟩, Nat.zero_lt_succ _,
      .inr ⟨hk, mappable_of_alloc hm⟩⟩
  · cases h
    have hk : i / 511 = k := by omega
    exact ⟨⟨by omega, hentry, by omega⟩, by omega, .inl hk⟩

lemma extractPages_spec {n k i : ℕ} {c : Cursor} (hc : c.At k i) (h : extractPages cfg reply n c = some pages) :
    (∀ j < n, pages[j]? = some (reply.words (512 * ((i + j) / 511) + (i + j) % 511)) ∧
      ((i + j) / 511 = k ∨ Mappable cfg (reply.words (512 * ((i + j) / 511) - 1)))) ∧
      ∀ page ∈ pages, page &&& smallPageMask = 0 := by
  induction n generalizing c k i pages with
  | zero =>
    cases h
    exact ⟨nofun, nofun⟩
  | succ n ih =>
    simp only [extractPages, Option.bind_eq_bind, Option.bind_eq_some_iff] at h
    obtain ⟨c', hsettle, h⟩ := h
    split at h
    · cases h
    next haligned =>
    obtain ⟨rest, hrest, hpages⟩ := Option.bind_eq_some_iff.mp h
    cases hpages
    obtain ⟨⟨hword, -, hi⟩, hlt, hpage⟩ := settle_spec hc hsettle
    obtain ⟨hih, hall⟩ := ih (k := i / 511) (i := i + 1)
      ⟨show c'.word + 1 = _ + (c'.entry + 1) by omega, show c'.entry + 1 ≤ 511 by omega, show _ + (c'.entry + 1) = _ by omega⟩ hrest
    have hhere : i / 511 = k ∨ Mappable cfg (reply.words (512 * (i / 511) - 1)) := by
      refine hpage.imp_right fun ⟨hk, hm⟩ => ?_
      rwa [hk]
    refine ⟨fun j hj => ?_, List.forall_mem_cons.mpr ⟨not_not.mp haligned, hall⟩⟩
    cases j with
    | zero =>
      refine ⟨?_, hhere⟩
      rw [hword, show c'.entry = (i + 0) % 511 by omega]
      rfl
    | succ j =>
      obtain ⟨hget, hmap⟩ := hih j (by omega)
      rw [show i + (j + 1) = i + 1 + j by omega]
      refine ⟨hget, hmap.elim (fun hsame => ?_) .inr⟩
      rw [hsame]
      exact hhere

lemma decodes {n : ℕ} (h : msgParamExtractPages cfg (reply.reading mem buffer) buffer n = some pages) :
    Decodes cfg mem buffer n pages := by
  have hlen := msgParamExtractPages_length h
  rw [msgParamExtractPages] at h
  split at h
  · cases h
  obtain ⟨m, hm, h⟩ := Option.bind_eq_some_iff.mp h
  obtain ⟨hentry, hall⟩ := extractPages_spec (k := 0) (i := 0) ⟨rfl, Nat.zero_le _, rfl⟩ h
  refine ⟨hlen, fun i hi => ?_, hall, fun i hi => ?_⟩
  · rw [(hentry i hi).1, Nat.zero_add]
    dsimp only [Reply.reading]
    rw [show (512 * (i / 511) + i % 511) / 512 = i / 511 by omega, show (512 * (i / 511) + i % 511) % 512 = i % 511 by omega]
  · have hmap := (hentry i hi).2
    rw [Nat.zero_add] at hmap
    cases hk : i / 511 with
    | zero => exact mappable_of_alloc hm
    | succ k =>
      rw [hk] at hmap
      have := hmap.resolve_left (Nat.succ_ne_zero k)
      dsimp only [Reply.reading] at this
      rwa [show (512 * (k + 1) - 1) / 512 = k by omega, show (512 * (k + 1) - 1) % 512 = 511 by omega] at this

lemma size_bounds (h : reply.size.toNat ≤ 2 ^ 64 - 4096) :
    reply.size.toNat ≤ (numPages reply * smallPageSize - pageOffset reply).toNat ∧
      (numPages reply * smallPageSize - pageOffset reply).toNat < reply.size.toNat + 4096 := by
  have hoffset : (pageOffset reply).toNat = reply.bufPtr.toNat % 4096 := offset_toNat _
  rw [numPages, smallPageSize, UInt64.toNat_sub, UInt64.toNat_mul, UInt64.toNat_add, UInt64.toNat_div, UInt64.toNat_sub,
    UInt64.toNat_add]
  simp only [UInt64.reduceToNat]
  omega

lemma mobjFromNoncontig_spec {mapBuffer : Bool} (hbuffer : buffer = reply.bufPtr &&& ~~~smallPageMask)
    (h : mobjFromNoncontig cfg (reply.reading mem buffer) mapBuffer = some m) :
    ∃ pages mm, Decodes cfg mem buffer (numPages reply).toNat pages ∧
      m = .regShm pages (pageOffset reply) (numPages reply * smallPageSize - pageOffset reply) reply.shmRef mm := by
  have hread : ∃ mm, msgParamMobjFromNoncontig cfg ({ reply with mm }.reading mem buffer) = some m := by
    cases mapBuffer with
    | true | false => exact ⟨_, h⟩
  subst hbuffer
  obtain ⟨mm, h⟩ := hread
  obtain ⟨pages, hpages, halloc⟩ := msgParamMobjFromNoncontig_eq_some h
  have hdecodes := decodes hpages
  obtain ⟨-, -, -, base, rfl⟩ := mobjMappedShmAlloc_eq_some halloc
  rw [hdecodes.length, UInt64.ofNat_toNat]
  exact ⟨pages, base, hdecodes, rfl⟩

theorem noncontig_decoded (cfg : Config) (mem : UInt64 → ℕ → UInt64) (reply : Reply) :
    (∀ buffer n pages, msgParamExtractPages cfg (reply.reading mem buffer) buffer n = some pages →
      Decodes cfg mem buffer n pages) ∧
    ∀ mapBuffer m, mobjFromNoncontig cfg (reply.reading mem (reply.bufPtr &&& ~~~smallPageMask)) mapBuffer = some m →
      ∃ pages mm, Decodes cfg mem (reply.bufPtr &&& ~~~smallPageMask) (numPages reply).toNat pages ∧
        m = .regShm pages (pageOffset reply) m.size reply.shmRef mm ∧
        (reply.size.toNat ≤ 2 ^ 64 - 4096 →
          reply.size.toNat ≤ m.size.toNat ∧ m.size.toNat < reply.size.toNat + 4096) := by
  refine ⟨fun buffer n pages h => decodes h, fun mapBuffer m h => ?_⟩
  obtain ⟨pages, mm, hdecodes, rfl⟩ := mobjFromNoncontig_spec rfl h
  exact ⟨pages, mm, hdecodes, rfl, size_bounds⟩

/-- One byte is asked for. -/
theorem noncontig_whole_page : ∃ m, mobjFromNoncontig ⟨true, none, 0, [⟨0x1000, 0x10000⟩], 64⟩
      (Reply.reading ⟨0, 1, 0, 0x1000, 1, 0, fun _ => 0, true, true, fun _ => some 0, some 0⟩ (fun _ _ => 0x2000) 0x1000)
      true = some m ∧ m.size = 4096 :=
  ⟨.regShm [0x2000] 0 4096 0 0, by decide +kernel, rfl⟩

end Optee.Rpc
