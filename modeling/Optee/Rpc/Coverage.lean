import Optee.Lib.Runs
import Optee.Rpc.Payload

/-! The size of a buffer is that of the reply; it covers the request as long as the replies are ample. -/

namespace Optee.Rpc

open Lib.Runs List

def Area.Has (a : Area) (x : ℕ) : Prop := a.start.toNat ≤ x ∧ x < a.start.toNat + a.size.toNat

lemma inside_bounds {b bl : UInt64} {a : Area} (h : coreIsBufferInside b bl a = true) :
    a.start.toNat ≤ b.toNat ∧ b.toNat + bl.toNat ≤ a.start.toNat + a.size.toNat := by
  rw [coreIsBufferInside] at h
  split_ifs at h
  next hvalid hne =>
  obtain ⟨hle, hlast⟩ := of_decide_eq_true h
  simp only [not_or, UInt64.lt_iff_toNat_lt, UInt64.le_iff_toNat_le, ← UInt64.toNat_inj, UInt64.toNat_add,
    UInt64.toNat_sub, UInt64.reduceToNat] at hvalid hne hle hlast
  have := bl.toNat_lt
  omega

variable {cfg : Config} {nw : Request → Reply} {reply : Reply} {m : Mobj} {va : ℕ} {size : UInt64}

def NonSecure (cfg : Config) (x : ℕ) : Prop :=
  (∃ a ∈ cfg.nsecShm, a.Has x) ∨ (cfg.dynShm = true ∧ ∃ a ∈ cfg.nsecDdr, a.Has x)

variable {i : ℕ} {pa : UInt64}

lemma has_of_inside {b bl : UInt64} {a : Area} (h : coreIsBufferInside b bl a = true) (hi : i < bl.toNat) :
    a.Has (b.toNat + i) := by
  obtain ⟨hlo, hhi⟩ := inside_bounds h
  exact ⟨by omega, by omega⟩

lemma nsecShm_has {len : UInt64} (h : corePbufIsNsecShm cfg pa len = true) (hi : i < len.toNat) :
    ∃ a ∈ cfg.nsecShm, a.Has (pa.toNat + i) := by
  rw [corePbufIsNsecShm, Bool.or_eq_true, decide_eq_true_eq, Option.any_eq_true] at h
  obtain rfl | ⟨a, ha, hin⟩ := h
  · exact absurd hi (Nat.not_lt_zero i)
  · exact ⟨a, ha, has_of_inside hin hi⟩

lemma nonSecure_of_nonSec {len : UInt64} (h : corePbufIsNonSec cfg pa len = true) (hi : i < len.toNat) :
    NonSecure cfg (pa.toNat + i) := by
  rw [corePbufIsNonSec, Bool.or_eq_true, Bool.and_eq_true] at h
  obtain h | ⟨hdyn, h⟩ := h
  · exact .inl (nsecShm_has h hi)
  · obtain ⟨a, ha, hin⟩ := any_eq_true.mp h
    exact .inr ⟨hdyn, a, ha, has_of_inside hin hi⟩

def Mobj.byte : Mobj → ℕ → Option ℕ
  | .shm pa _ _, i => some (pa.toNat + i)
  | .regShm pages pageOffset _ _ _, i =>
    pages[(i + pageOffset.toNat) / 4096]?.map fun page => page.toNat + (i + pageOffset.toNat) % 4096

structure Covers (cfg : Config) (m : Mobj) (size : UInt64) : Prop where
  size : size ≤ m.size
  nonSecure : ∀ i < m.size.toNat, ∃ x, m.byte i = some x ∧ NonSecure cfg x

def MappedAt (cfg : Config) (m : Mobj) (va : ℕ) : Prop := ∀ i < m.size.toNat, m.getVa cfg i = some (va + i)

section Objects

variable {cookie offset : UInt64} {n : ℕ} {pages : List UInt64}

lemma mobjShmAlloc_spec {memory : Bool} (h : mobjShmAlloc cfg memory pa size cookie = some m) :
    m.size = size ∧ Covers cfg m size ∧ ∀ va, m.getVa cfg 0 = some va → MappedAt cfg m va := by
  rw [mobjShmAlloc] at h
  split_ifs at h
  next hin _ =>
  cases h
  have hin : corePbufIsNsecShm cfg pa size = true := by simpa using hin
  refine ⟨rfl, ⟨UInt64.le_refl _, fun i hi => ⟨_, rfl, .inl (nsecShm_has hin hi)⟩⟩, fun va hva i hi => ?_⟩
  have hi : i < size.toNat := hi
  obtain ⟨a, ha, hlo, hhi⟩ := nsecShm_has hin hi
  obtain ⟨b, hb, hlo', -⟩ := nsecShm_has hin (Nat.zero_lt_of_lt hi)
  rw [ha] at hb
  cases hb
  have h0 : Mobj.getVa cfg (.shm pa size cookie) 0 = some (cfg.nsecShmVa + (pa.toNat + 0 - a.start.toNat)) := by
    rw [Mobj.getVa, if_neg (by omega), ha]
    exact if_pos ⟨hlo', by omega⟩
  rw [h0] at hva
  cases hva
  rw [Mobj.getVa, if_neg (by omega), ha]
  refine (if_pos ⟨hlo, hhi⟩).trans ?_
  congr 1
  omega

lemma pages_bound (hpos : 0 < n) (hn : n ≤ 2 ^ 52) (hoffset : ¬smallPageSize ≤ offset)
    (hi : i < (UInt64.ofNat n * smallPageSize - offset).toNat) : i + offset.toNat < n * 4096 := by
  have hlt : n < UInt64.size := Nat.lt_of_le_of_lt hn (by decide)
  rw [smallPageSize, UInt64.le_iff_toNat_le] at hoffset
  rw [smallPageSize, UInt64.toNat_sub, UInt64.toNat_mul, UInt64.toNat_ofNat_of_lt' hlt] at hi
  simp only [UInt64.reduceToNat] at hoffset hi
  omega

lemma mobjMappedShmAlloc_eq_some {mm : Option ℕ} (h : mobjMappedShmAlloc cfg mm pages offset cookie = some m) :
    pages ≠ [] ∧ ¬smallPageSize ≤ offset ∧
      (∀ page ∈ pages, page &&& smallPageMask = 0 ∧ corePbufIsNonSec cfg page smallPageSize = true) ∧
      ∃ base, m = .regShm pages offset (UInt64.ofNat pages.length * smallPageSize - offset) cookie base := by
  rw [mobjMappedShmAlloc] at h
  split_ifs at h
  next hne _ hall =>
  obtain ⟨hpages, hoffset⟩ := not_or.mp hne
  obtain ⟨base, -, rfl⟩ := Option.map_eq_some_iff.mp h
  exact ⟨hpages, hoffset, by simpa using hall, base, rfl⟩

lemma mobjMappedShmAlloc_spec {mm : Option ℕ} (hn : pages.length ≤ 2 ^ 52)
    (h : mobjMappedShmAlloc cfg mm pages offset cookie = some m) :
    m.size = UInt64.ofNat pages.length * smallPageSize - offset ∧ Covers cfg m m.size ∧
      ∀ va, m.getVa cfg 0 = some va → MappedAt cfg m va := by
  obtain ⟨hpages, hoffset, hall, base, rfl⟩ := mobjMappedShmAlloc_eq_some h
  have hpos : 0 < pages.length := length_pos_iff.mpr hpages
  refine ⟨rfl, ⟨UInt64.le_refl _, fun i hi => ?_⟩, fun va hva i hi => ?_⟩
  · have hbound := pages_bound hpos hn hoffset hi
    have hlt : (i + offset.toNat) / 4096 < pages.length := by omega
    refine ⟨_, ?_, nonSecure_of_nonSec (hall _ (getElem_mem hlt)).2 (i := (i + offset.toNat) % 4096) (Nat.mod_lt _ (by decide))⟩
    rw [Mobj.byte, getElem?_eq_getElem hlt]
    rfl
  · have hi : i < (UInt64.ofNat pages.length * smallPageSize - offset).toNat := hi
    rw [Mobj.getVa, if_neg (by omega)] at hva ⊢
    cases hva
    congr 1
    omega

lemma extractPages_length {c : Cursor} (h : extractPages cfg reply n c = some pages) : pages.length = n := by
  induction n generalizing c pages with
  | zero =>
    cases h
    rfl
  | succ n ih =>
    obtain ⟨c', -, h⟩ := Option.bind_eq_some_iff.mp h
    dsimp only at h
    split at h
    · cases h
    · obtain ⟨rest, hrest, h⟩ := Option.bind_eq_some_iff.mp h
      cases h
      rw [length_cons, ih hrest]

lemma msgParamExtractPages_length {buffer : UInt64} (h : msgParamExtractPages cfg reply buffer n = some pages) :
    pages.length = n := by
  rw [msgParamExtractPages] at h
  split at h
  · cases h
  · obtain ⟨-, -, h⟩ := Option.bind_eq_some_iff.mp h
    exact extractPages_length h

lemma msgParamMobjFromNoncontig_eq_some (h : msgParamMobjFromNoncontig cfg reply = some m) :
    ∃ pages, msgParamExtractPages cfg reply (reply.bufPtr &&& ~~~smallPageMask) (numPages reply).toNat = some pages ∧
      mobjMappedShmAlloc cfg reply.mm pages (pageOffset reply) reply.shmRef = some m := by
  rw [msgParamMobjFromNoncontig] at h
  split_ifs at h
  exact Option.bind_eq_some_iff.mp h

lemma numPages_le (reply : Reply) : (numPages reply).toNat ≤ 2 ^ 52 := by
  rw [numPages, smallPageSize, UInt64.toNat_add, UInt64.toNat_div]
  have := (reply.size + pageOffset reply - 1).toNat_lt
  simp only [UInt64.reduceToNat]
  omega

def replySize (cfg : Config) (reply : Reply) : UInt64 :=
  if reply.attr = tmemOutput then
    if corePbufIsNsecShm cfg reply.bufPtr reply.size then reply.size else smallPageSize
  else numPages reply * smallPageSize - pageOffset reply

lemma getRpcAllocRes_spec (h : getRpcAllocRes cfg reply = some m) :
    m.size = replySize cfg reply ∧ Covers cfg m m.size ∧ ∀ va, m.getVa cfg 0 = some va → MappedAt cfg m va := by
  rw [getRpcAllocRes] at h
  split at h
  · cases h
  split at h
  · cases h
  rw [replySize]
  split at h
  · next hattr =>
    rw [if_pos hattr]
    rw [rpcShmMobjAlloc] at h
    split at h
    · next hshm =>
      rw [if_pos hshm]
      obtain ⟨hsize, hcovers, hmapped⟩ := mobjShmAlloc_spec h
      exact ⟨hsize, hsize ▸ hcovers, hmapped⟩
    · next hshm =>
      rw [if_neg hshm]
      split at h
      · have hone : [reply.bufPtr].length ≤ 2 ^ 52 := Nat.one_le_two_pow
        obtain ⟨hsize, hrest⟩ := mobjMappedShmAlloc_spec hone h
        rw [length_singleton] at hsize
        exact ⟨hsize.trans (by decide), hrest⟩
      · cases h
  · next hattr =>
    rw [if_neg hattr]
    obtain ⟨pages, hpages, h⟩ := msgParamMobjFromNoncontig_eq_some h
    have hlength := msgParamExtractPages_length hpages
    obtain ⟨hsize, hrest⟩ := mobjMappedShmAlloc_spec (hlength ▸ numPages_le reply) h
    rw [hlength, UInt64.ofNat_toNat] at hsize
    exact ⟨hsize, hrest⟩

lemma allocShm_spec {bt : ShmType} (h : allocShm cfg nw bt size = some m) :
    m.size = replySize cfg (nw ⟨bt, size, 8⟩) ∧ Covers cfg m m.size ∧
      ∀ va, m.getVa cfg 0 = some va → MappedAt cfg m va := by
  have halloc : threadRpcAlloc cfg nw size 8 bt = some m := by
    cases bt with
    | application | global => exact h
    | kernelPrivate =>
      rw [allocShm, threadRpcAllocKernelPayload] at h
      split at h
      · cases h
      · exact h
  rw [threadRpcAlloc] at halloc
  split at halloc
  · cases halloc
  · exact getRpcAllocRes_spec halloc

end Objects

/-- The reply to the request, if anything is made of it, is for as much memory as was asked for. -/
def Ample (cfg : Config) (nw : Request → Reply) (bt : ShmType) (size : UInt64) : Prop :=
  allocShm cfg nw bt size = none ∨ size ≤ replySize cfg (nw ⟨bt, size, 8⟩)

instance (cfg : Config) (nw : Request → Reply) (bt : ShmType) (size : UInt64) : Decidable (Ample cfg nw bt size) := by
  unfold Ample
  infer_instance

lemma covers_iff_ample (cfg : Config) (nw : Request → Reply) (bt : ShmType) (size : UInt64) :
    (∀ m, allocShm cfg nw bt size = some m → Covers cfg m size) ↔ Ample cfg nw bt size := by
  cases halloc : allocShm cfg nw bt size with
  | none => exact ⟨fun _ => .inl halloc, fun _ => nofun⟩
  | some m =>
    obtain ⟨hsize, hcovers, -⟩ := allocShm_spec halloc
    constructor
    · intro h
      exact .inr (hsize ▸ (h m rfl).size)
    · rintro (hnone | hle) m' hm
      · rw [halloc] at hnone
        cases hnone
      · cases hm
        exact ⟨hsize ▸ hle, hcovers.nonSecure⟩

structure State where
  cache : Cache
  returned : List (UInt64 × ℕ × Mobj)

def step (cfg : Config) (s : State) (call : Call) : Except Empty State :=
  let (cache, res) := threadRpcShmCacheAlloc cfg s.cache call
  .ok ⟨cache, (res.toList.map fun buffer => (call.size, buffer)) ++ s.returned⟩

def init : State := ⟨fun _ => none, []⟩

def Allowed (cfg : Config) (s : State) (call : Call) : Prop :=
  call.size.toNat ≤ 2 ^ 64 - 4096 ∧
    ∀ ce ∈ getShmCacheEntry call.memory s.cache call.user,
      ce.type ≠ call.shmType ∨ ce.size < roundUp call.size →
      Ample cfg call.nw call.shmType (roundUp call.size)

instance (cfg : Config) (s : State) (call : Call) : Decidable (Allowed cfg s call) := by
  unfold Allowed
  infer_instance

def CacheEntry.Fine (cfg : Config) (ce : CacheEntry) : Prop :=
  ∀ m ∈ ce.mobj, Covers cfg m ce.size ∧ ∀ va, m.getVa cfg 0 = some va → MappedAt cfg m va

structure State.Sound (cfg : Config) (s : State) : Prop where
  entries : ∀ user, ∀ ce ∈ s.cache user, ce.Fine cfg
  returned : ∀ size va m, (size, va, m) ∈ s.returned → Covers cfg m size ∧ MappedAt cfg m va

section Cache

lemma offset_toNat (x : UInt64) : (x &&& smallPageMask).toNat = x.toNat % 4096 := by
  exact Nat.and_two_pow_sub_one_eq_mod x.toNat 12

lemma page_add_offset (x : UInt64) : (x &&& ~~~smallPageMask) + (x &&& smallPageMask) = x := by
  have hdisjoint : (x.toBitVec &&& ~~~smallPageMask.toBitVec) &&& (x.toBitVec &&& smallPageMask.toBitVec) = 0#64 := by
    grind
  apply UInt64.toBitVec_inj.mp
  calc
    _ = (x.toBitVec &&& ~~~smallPageMask.toBitVec) ||| (x.toBitVec &&& smallPageMask.toBitVec) :=
      BitVec.add_eq_or_of_and_eq_zero _ _ hdisjoint
    _ = x.toBitVec := by grind

lemma page_toNat (x : UInt64) : (x &&& ~~~smallPageMask).toNat + x.toNat % 4096 = x.toNat := by
  have hle : x &&& ~~~smallPageMask ≤ x := by
    exact Nat.and_le_left
  have hsum := congrArg UInt64.toNat (page_add_offset x)
  rw [UInt64.toNat_add, offset_toNat] at hsum
  rw [UInt64.le_iff_toNat_le] at hle
  omega
lemma le_roundUp (hle : size.toNat ≤ 2 ^ 64 - 4096) : size ≤ roundUp size := by
  have hpage := page_toNat (size + smallPageMask)
  have hsum : (size + smallPageMask).toNat = size.toNat + 4095 := by
    rw [UInt64.toNat_add, Nat.mod_eq_of_lt]
    · rfl
    · exact Nat.lt_of_le_of_lt (Nat.add_le_add_right hle _) (by decide)
  rw [UInt64.le_iff_toNat_le, roundUp]
  omega

lemma Covers.mono {size' : UInt64} (h : Covers cfg m size) (hle : size' ≤ size) : Covers cfg m size' :=
  ⟨UInt64.le_trans hle h.size, h.nonSecure⟩

lemma fine_clear (cfg : Config) (ce : CacheEntry) : (clearShmCacheEntry ce).Fine cfg := nofun

variable {ce : CacheEntry} {shmType : ShmType} {sz : UInt64}

lemma refill_spec (hce : ce.Fine cfg) (hample : Ample cfg nw shmType sz) :
    (refill cfg nw ce shmType sz).1.Fine cfg ∧
      ∀ va m, (refill cfg nw ce shmType sz).2 = some (va, m) → Covers cfg m sz ∧ MappedAt cfg m va := by
  rw [refill]
  cases halloc : allocShm cfg nw shmType sz with
  | none => exact ⟨hce, nofun⟩
  | some mobj =>
    obtain ⟨-, -, hmapped⟩ := allocShm_spec halloc
    have hcovers := (covers_iff_ample cfg nw shmType sz).mpr hample mobj halloc
    dsimp only
    split
    · next pa va hpa hva =>
      split
      · exact ⟨hce, nofun⟩
      refine ⟨fun m hm => ?_, fun va' m hm => ?_⟩
      · cases hm
        exact ⟨hcovers, hmapped⟩
      · cases hm
        exact ⟨hcovers, hmapped va hva⟩
    · exact ⟨hce, nofun⟩

lemma fromEntry_spec (hce : ce.Fine cfg)
    (hample : ce.type ≠ shmType ∨ ce.size < sz → Ample cfg nw shmType sz) :
    (fromEntry cfg nw ce shmType sz).1.Fine cfg ∧
      ∀ va m, (fromEntry cfg nw ce shmType sz).2 = some (va, m) → Covers cfg m sz ∧ MappedAt cfg m va := by
  rw [fromEntry]
  split
  · next hrefill => exact refill_spec (fine_clear cfg ce) (hample hrefill)
  next hkeep =>
  have hle : sz ≤ ce.size := UInt64.not_lt.mp (not_or.mp hkeep).2
  split
  · next found hfound =>
    obtain ⟨mobj, hmobj, hget⟩ := Option.bind_eq_some_iff.mp hfound
    obtain ⟨va, hva, rfl⟩ := Option.map_eq_some_iff.mp hget
    obtain ⟨hcovers, hmapped⟩ := hce mobj hmobj
    refine ⟨hce, fun va' m hm => ?_⟩
    cases hm
    exact ⟨hcovers.mono hle, hmapped va hva⟩
  · exact ⟨fine_clear cfg ce, nofun⟩

variable {s : State} {user : CacheUser}

lemma getShmCacheEntry_fine (h : s.Sound cfg) {memory : Bool} (hce : getShmCacheEntry memory s.cache user = some ce) :
    ce.Fine cfg := by
  rw [getShmCacheEntry] at hce
  split at hce
  · next hcache =>
    cases hce
    exact h.entries user ce hcache
  · split at hce
    · cases hce
      exact nofun
    · cases hce

lemma State.Sound.answer (h : s.Sound cfg) {res : Option (ℕ × Mobj)} (hce : ce.Fine cfg)
    (hres : ∀ va m, res = some (va, m) → Covers cfg m size ∧ MappedAt cfg m va) :
    State.Sound cfg ⟨s.cache.set user ce, (res.toList.map fun buffer => (size, buffer)) ++ s.returned⟩ := by
  refine ⟨fun user' ce' hce' => ?_, fun size' va m hmem => ?_⟩
  · by_cases huser : user' = user
    · subst huser
      have hce' : (s.cache.set user' ce) user' = some ce' := hce'
      rw [Cache.set, Function.update_self] at hce'
      cases hce'
      exact hce
    · have hce' : (s.cache.set user ce) user' = some ce' := hce'
      rw [Cache.set, Function.update_of_ne huser] at hce'
      exact h.entries user' ce' hce'
  · obtain hmem | hmem := mem_append.mp hmem
    · obtain ⟨buffer, hbuffer, heq⟩ := mem_map.mp hmem
      cases heq
      exact hres va m (Option.mem_toList.mp hbuffer)
    · exact h.returned size' va m hmem

lemma threadRpcShmCacheAlloc_cases (cfg : Config) (cache : Cache) (call : Call) :
    threadRpcShmCacheAlloc cfg cache call = (cache, none) ∨
      ∃ ce, getShmCacheEntry call.memory cache call.user = some ce ∧
        threadRpcShmCacheAlloc cfg cache call =
          (cache.set call.user (fromEntry cfg call.nw ce call.shmType (roundUp call.size)).1,
            (fromEntry cfg call.nw ce call.shmType (roundUp call.size)).2) := by
  rw [threadRpcShmCacheAlloc]
  split
  · exact .inl rfl
  · cases getShmCacheEntry call.memory cache call.user with
    | none => exact .inl rfl
    | some ce => exact .inr ⟨ce, rfl, rfl⟩

lemma State.Sound.step (h : s.Sound cfg) (call : Call) (hallowed : Allowed cfg s call) :
    ∃ s', step cfg s call = .ok s' ∧ s'.Sound cfg := by
  obtain ⟨hle, hneed⟩ := hallowed
  rw [Rpc.step]
  obtain hnone | ⟨ce, hce, heq⟩ := threadRpcShmCacheAlloc_cases cfg s.cache call
  · rw [hnone]
    exact ⟨s, rfl, h⟩
  · obtain ⟨hfine, hres⟩ := fromEntry_spec (getShmCacheEntry_fine h hce) (hneed ce hce)
    rw [heq]
    exact ⟨_, rfl, h.answer hfine fun va m hm => ⟨(hres va m hm).1.mono (le_roundUp hle), (hres va m hm).2⟩⟩

end Cache

lemma sound_init (cfg : Config) : init.Sound cfg := ⟨nofun, nofun⟩

theorem payload_covers (cfg : Config) :
    (∀ (nw : Request → Reply) (bt : ShmType) (size : UInt64),
      (∀ m, allocShm cfg nw bt size = some m → Covers cfg m size) ↔ Ample cfg nw bt size) ∧
    ∀ calls : List Call, Along (step cfg) (Allowed cfg) init calls →
      ∃ s, run (step cfg) init calls = .ok s ∧
        ∀ size va m, (size, va, m) ∈ s.returned → Covers cfg m size ∧ MappedAt cfg m va := by
  refine ⟨covers_iff_ample cfg, fun calls hcalls => ?_⟩
  obtain ⟨s, hrun, hs⟩ := hcalls.completes (sound_init cfg) fun s call h ha => h.step call ha
  exact ⟨s, hrun, hs.returned⟩

def board : Config := ⟨true, some ⟨0x80000000, 0x10000⟩, 0x1000000, [], 64⟩

def offer (size : UInt64) : Request → Reply := fun _ =>
  { ret := 0, numParams := 1, attr := tmemOutput, bufPtr := 0x80000000, size := size, shmRef := 1, words := fun _ => 0,
    arg := true, memory := true, listMm := fun _ => none, mm := none }

theorem payload_covers_page :
    ∃ s, run (step board) init [⟨.fs, .application, 100, offer 4096, true⟩] = .ok s ∧
      s.returned = [(100, 0x1000000, .shm 0x80000000 4096 1)] ∧
      ∀ size va m, (size, va, m) ∈ s.returned → Covers board m size ∧ MappedAt board m va := by
  obtain ⟨s, hrun, hs⟩ := (payload_covers board).2 [⟨.fs, .application, 100, offer 4096, true⟩] (by decide)
  refine ⟨s, hrun, ?_, hs⟩
  cases hrun
  rfl

theorem payload_too_small :
    (∃ m, allocShm board (offer 1) .application 4096 = some m ∧ ¬Covers board m 4096) ∧
    (∃ s va m, run (step board) init [⟨.fs, .application, 100, offer 1, true⟩] = .ok s ∧
      (100, va, m) ∈ s.returned ∧ ¬Covers board m 100) ∧
    ∃ s va m, run (step board) init [⟨.fs, .application, 100, offer 4096, true⟩,
        ⟨.fs, .application, 0xffffffffffffffff, offer 4096, true⟩] = .ok s ∧
      (0xffffffffffffffff, va, m) ∈ s.returned ∧ ¬Covers board m 0xffffffffffffffff := by
  refine ⟨⟨.shm 0x80000000 1 1, by decide, fun h => absurd h.size (by decide)⟩,
    ⟨_, 0x1000000, .shm 0x80000000 1 1, rfl, ?_, fun h => absurd h.size (by decide)⟩,
    _, 0x1000000, .shm 0x80000000 4096 1, rfl, ?_, fun h => absurd h.size (by decide)⟩
  · exact mem_cons_self
  · exact mem_cons_self

end Optee.Rpc
