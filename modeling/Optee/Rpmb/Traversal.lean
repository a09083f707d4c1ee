import Optee.Rpmb.FatDir

/-! A traversal returns the entries of the table as they are stored, each with its address. -/

namespace Optee.Rpmb

open Lib List TeeResult Function

variable {F : FatConfig} {stored : StoredFat} {dir dir' : FatEntryDir} {buf buf' : List FatEntry} {offset idx n : ℕ}

lemma readEntries_length (stored : StoredFat) (idx n : ℕ) : (readEntries stored idx n).length = n := by
  simp [readEntries]

lemma getElem?_readEntries (stored : StoredFat) {k : ℕ} (h : k < n) :
    (readEntries stored idx n)[k]? = some (stored (idx + k)) := by
  simp [readEntries, h]

lemma realloc_length (buf : List FatEntry) (n : ℕ) : (realloc buf n).length = n := by
  simp only [realloc, length_append, length_take, length_replicate]
  omega

lemma getElem?_realloc {j : ℕ} (hn : j < n) (hj : j < buf.length) : (realloc buf n)[j]? = buf[j]? := by
  rw [realloc, getElem?_append_left (by rw [length_take]; omega), getElem?_take_of_lt hn]

variable {fault : Option TeeError} {e : TeeError} {entry : FatEntry}

lemma readInto_ok (h : readInto stored buf offset idx n fault = .ok buf') : buf'.length = buf.length ∧
      ∀ j, buf'[j]? = if offset ≤ j ∧ j < offset + n then some (stored (idx + (j - offset))) else buf[j]? := by
  cases fault with
  | some e => cases h
  | none =>
    obtain ⟨_, hle, h⟩ := bind_eq_ok.mp h
    replace hle := assert_eq_ok.mp hle
    cases h
    have hlen : (buf.take offset).length = offset := by
      rw [length_take]
      omega
    refine ⟨?_, fun j => ?_⟩
    · simp only [length_append, hlen, readEntries_length, length_drop]
      omega
    · rw [append_assoc]
      by_cases hj : j < offset
      · rw [getElem?_append_left (by omega), getElem?_take_of_lt hj, if_neg (by omega)]
      rw [getElem?_append_right (by omega), hlen]
      by_cases hjn : j < offset + n
      · rw [getElem?_append_left (by rw [readEntries_length]; omega), getElem?_readEntries _ (by omega),
          if_pos (by omega)]
      · rw [getElem?_append_right (by rw [readEntries_length]; omega), readEntries_length, getElem?_drop,
          if_neg (by omega), show offset + n + (j - offset - n) = j by omega]

lemma readInto_error (hle : offset + n ≤ buf.length) (h : readInto stored buf offset idx n fault = .error e) :
    fault = some e := by
  cases fault with
  | some e' =>
    cases h
    rfl
  | none =>
    rw [readInto, assert_of hle] at h
    cases h

structure Cached (F : FatConfig) (stored : StoredFat) (dir : FatEntryDir) : Prop where
  alloc : dir.numBuffered ≤ dir.buf.length
  plain : F.cacheEntries = 0 → dir.numBuffered = F.rdEntries
  bound : F.cacheEntries ≠ 0 → dir.numBuffered ≤ F.cacheEntries + F.rdEntries
  cache : ∀ j < dir.numBuffered, j < F.cacheEntries → dir.buf[j]? = some (stored j)

structure Ahead (F : FatConfig) (stored : StoredFat) (dir : FatEntryDir) : Prop extends Cached F stored dir where
  cur : dir.idxCurr ≤ dir.numBuffered
  pending : ∀ j, dir.idxCurr ≤ j → j < dir.numBuffered →
    dir.buf[j]? = some (stored (dir.numTotalRead + (j - dir.idxCurr)))
  fill : F.cacheEntries ≠ 0 → dir.numTotalRead < F.cacheEntries + F.rdEntries → dir.idxCurr = dir.numTotalRead
  full : F.cacheEntries ≠ 0 → F.cacheEntries + F.rdEntries ≤ dir.numTotalRead →
    dir.numBuffered = F.cacheEntries + F.rdEntries ∧ F.cacheEntries ≤ dir.idxCurr

lemma Ahead.init (h : fatEntryDirInit F stored fault none = .ok dir) :
    Ahead F stored dir ∧ dir.numTotalRead = 0 ∧ dir.lastReached = false := by
  rw [fatEntryDirInit] at h
  generalize hn : (if F.cacheEntries ≠ 0 then min F.cacheEntries F.rdEntries else F.rdEntries) = n at h
  obtain ⟨buf, hbuf, h⟩ := bind_eq_ok.mp h
  cases h
  obtain ⟨hlen, hget⟩ := readInto_ok hbuf
  rw [realloc_length] at hlen
  have hstored : ∀ j < n, buf[j]? = some (stored j) := by
    intro j hj
    rw [hget, if_pos (by omega), zero_add, Nat.sub_zero]
  have hbound : n ≤ F.cacheEntries + F.rdEntries := by
    split_ifs at hn <;> omega
  refine ⟨⟨⟨hlen.ge, fun hC => ?_, fun _ => hbound, fun j hj _ => hstored j hj⟩, Nat.zero_le _, fun j _ hj => ?_,
    fun _ _ => rfl, fun hC hle => ?_⟩, rfl, rfl⟩
  · rw [← hn, if_neg (not_not.mpr hC)]
  · rw [hstored j hj]
    simp
  · have : F.cacheEntries + F.rdEntries ≤ 0 := hle
    omega

lemma init_error {dir? : Option FatEntryDir} (h : fatEntryDirInit F stored fault dir? = .error e) : fault = some e := by
  cases dir? with
  | some dir => cases h
  | none =>
    rw [fatEntryDirInit] at h
    generalize hn : (if F.cacheEntries ≠ 0 then min F.cacheEntries F.rdEntries else F.rdEntries) = n at h
    cases hread : readInto stored (realloc [] n) 0 0 n fault with
    | ok buf =>
      simp only [hread] at h
      cases h
    | error e' =>
      simp only [hread] at h
      cases h
      exact readInto_error (by rw [realloc_length]; omega) hread

lemma Cached.of_eq (h : Cached F stored dir) (hbuf : dir'.buf = dir.buf) (hnum : dir'.numBuffered = dir.numBuffered) :
    Cached F stored dir' :=
  ⟨by rw [hbuf, hnum]; exact h.alloc, by rw [hnum]; exact h.plain, by rw [hnum]; exact h.bound,
    by rw [hbuf, hnum]; exact h.cache⟩

lemma Ahead.refill_ok {fault : ReadFault} {u : Unit} (hR : 0 < F.rdEntries) (h : Ahead F stored dir)
    (hok : refill F stored fault dir = (.ok u, dir')) :
    Ahead F stored dir' ∧ dir'.idxCurr < dir'.numBuffered ∧ dir'.numTotalRead = dir.numTotalRead := by
  have hcur := h.cur
  rw [refill] at hok
  split_ifs at hok with hidx hC htotal
  · cases hok
    exact ⟨h, hidx, rfl⟩
  · have hnum := h.plain hC
    dsimp only at hok
    split at hok
    · cases hok
    rename_i buf hread
    cases hok
    obtain ⟨hlen, hget⟩ := readInto_ok hread
    have halloc := h.alloc
    refine ⟨⟨⟨?_, h.plain, h.bound, fun j _ hj => ?_⟩, Nat.zero_le _, fun j _ hj => ?_, fun hne => absurd hC hne,
      fun hne => absurd hC hne⟩, ?_, rfl⟩
    · rw [hlen]
      exact halloc
    · omega
    · have hj' : j < dir.numBuffered := hj
      rw [hget, if_pos (by omega)]
    · change 0 < dir.numBuffered
      omega
  · -- the cache and the temporary area are still being filled
    have hfill := h.fill hC htotal
    have halloc := h.alloc
    split at hok
    · cases hok
    dsimp only at hok
    split at hok
    · cases hok
    rename_i buf hread
    cases hok
    obtain ⟨hlen, hget⟩ := readInto_ok hread
    generalize hn : min (F.cacheEntries + F.rdEntries - dir.numTotalRead) F.rdEntries = n at hlen hget
    rw [realloc_length] at hlen
    have hstored : ∀ j, j < dir.numBuffered + n → (j < dir.numTotalRead → j < F.cacheEntries) →
        buf[j]? = some (stored j) := by
      intro j hj hcache
      rw [hget]
      split_ifs with hin
      · rw [show dir.numTotalRead + (j - dir.numTotalRead) = j by omega]
      · have hlt : j < dir.numBuffered := by omega
        rw [getElem?_realloc (by omega) (by omega), h.cache j hlt (hcache (by omega))]
    refine ⟨⟨⟨hlen.ge, fun h0 => absurd h0 hC, fun _ => ?_, fun j hj hjC => hstored j hj fun _ => hjC⟩, ?_,
      fun j hj hj' => ?_, fun _ _ => hfill, fun _ hle => ?_⟩, ?_, rfl⟩
    · change dir.numBuffered + n ≤ _
      omega
    · change dir.idxCurr ≤ dir.numBuffered + n
      omega
    · have hj1 : dir.idxCurr ≤ j := hj
      have hj2 : j < dir.numBuffered + n := hj'
      rw [hstored j hj2 (by omega)]
      rw [show dir.numTotalRead + (j - dir.idxCurr) = j by omega]
    · exact absurd htotal (not_lt.mpr hle)
    · change dir.idxCurr < dir.numBuffered + n
      omega
  · -- the temporary area is used again
    obtain ⟨hnum, -⟩ := h.full hC (by omega)
    have halloc := h.alloc
    dsimp only at hok
    split at hok
    · cases hok
    rename_i buf hread
    cases hok
    obtain ⟨hlen, hget⟩ := readInto_ok hread
    refine ⟨⟨⟨?_, h.plain, h.bound, fun j hj hjC => ?_⟩, ?_, fun j hj hj' => ?_, fun _ hlt => absurd hlt htotal,
      fun _ _ => ⟨hnum, le_rfl⟩⟩, ?_, rfl⟩
    · rw [hlen]
      exact halloc
    · rw [hget, if_neg (by omega)]
      exact h.cache j hj hjC
    · change F.cacheEntries ≤ dir.numBuffered
      omega
    · have hj1 : F.cacheEntries ≤ j := hj
      have hj2 : j < dir.numBuffered := hj'
      rw [hget, if_pos (by omega)]
    · change F.cacheEntries < dir.numBuffered
      omega

lemma Ahead.refill_error {fault : ReadFault} (h : Ahead F stored dir)
    (herr : refill F stored fault dir = (.error e, dir')) :
    Cached F stored dir' ∧ (fault.alloc = some e ∨ fault.read = some e) := by
  have halloc := h.alloc
  have hcur := h.cur
  rw [refill] at herr
  split_ifs at herr with hidx hC htotal
  · cases herr
  · have hnum := h.plain hC
    dsimp only at herr
    split at herr
    · rename_i e' hread
      cases herr
      exact ⟨h.toCached.of_eq rfl rfl, Or.inr (readInto_error (by omega) hread)⟩
    · cases herr
  · have hfill := h.fill hC htotal
    split at herr
    · rename_i e' halloc'
      cases herr
      exact ⟨h.toCached, Or.inl halloc'⟩
    dsimp only at herr
    split at herr
    · rename_i e' hread
      cases herr
      refine ⟨⟨?_, h.plain, h.bound, fun j hj hjC => ?_⟩, Or.inr (readInto_error ?_ hread)⟩
      · dsimp only
        rw [realloc_length]
        omega
      · dsimp only at hj ⊢
        rw [getElem?_realloc (by omega) (by omega)]
        exact h.cache j hj hjC
      · rw [realloc_length]
        omega
    · cases herr
  · obtain ⟨hnum, -⟩ := h.full hC (by omega)
    dsimp only at herr
    split at herr
    · rename_i e' hread
      cases herr
      exact ⟨h.toCached.of_eq rfl rfl, Or.inr (readInto_error (by omega) hread)⟩
    · cases herr

lemma getNext_ended (fault : ReadFault) (h : dir.lastReached = true) :
    fatEntryDirGetNext F stored fault dir = (.ok none, dir) := by
  rw [fatEntryDirGetNext, if_pos h]

lemma Ahead.getNext (fault : ReadFault) (hR : 0 < F.rdEntries) (h : Ahead F stored dir) (hlast : dir.lastReached = false) :
    (∃ dir', fatEntryDirGetNext F stored fault dir = (.ok (some (stored dir.numTotalRead,
        fatStartAddress + dir.numTotalRead * fatEntrySize)), dir') ∧
      Ahead F stored dir' ∧ dir'.numTotalRead = dir.numTotalRead + 1 ∧
      dir'.lastReached = (stored dir.numTotalRead).isLast) ∨
    ∃ e dir', fatEntryDirGetNext F stored fault dir = (.error e, dir') ∧ Cached F stored dir' ∧
      (fault.alloc = some e ∨ fault.read = some e) := by
  rw [fatEntryDirGetNext, hlast]
  cases hrefill : refill F stored fault dir with
  | mk res dir1 =>
    cases res with
    | error e => exact Or.inr ⟨e, dir1, rfl, h.refill_error hrefill⟩
    | ok u =>
      obtain ⟨h1, hlt, htotal⟩ := h.refill_ok hR hrefill
      have hget : dir1.buf[dir1.idxCurr]? = some (stored dir.numTotalRead) := by
        rw [h1.pending dir1.idxCurr le_rfl hlt, Nat.sub_self, Nat.add_zero, htotal]
      refine Or.inl ⟨{ dir1 with
        idxCurr := dir1.idxCurr + 1
        numTotalRead := dir1.numTotalRead + 1
        lastReached := (stored dir.numTotalRead).isLast }, by simp [hget],
        ⟨h1.toCached.of_eq rfl rfl, hlt, fun j hj hj' => ?_, fun hC hlt' => ?_, fun hC hle => ?_⟩, by rw [htotal], rfl⟩
      · have hj1 : dir1.idxCurr + 1 ≤ j := hj
        rw [show dir1.numTotalRead + 1 + (j - (dir1.idxCurr + 1)) = dir1.numTotalRead + (j - dir1.idxCurr) by omega]
        exact h1.pending j (by omega) hj'
      · have hlt1 : dir1.numTotalRead + 1 < F.cacheEntries + F.rdEntries := hlt'
        rw [h1.fill hC (by omega)]
      · have hle1 : F.cacheEntries + F.rdEntries ≤ dir1.numTotalRead + 1 := hle
        change dir1.numBuffered = _ ∧ F.cacheEntries ≤ dir1.idxCurr + 1
        by_cases hfull : F.cacheEntries + F.rdEntries ≤ dir1.numTotalRead
        · have := h1.full hC hfull
          omega
        · have := h1.fill hC (by omega)
          have := h1.bound hC
          omega

lemma Cached.deinit {shrinkFault : Bool} (h : Cached F stored dir)
    (hok : fatEntryDirDeinit F shrinkFault (some dir) = some dir') :
    Ahead F stored dir' ∧ dir'.numTotalRead = 0 ∧ dir'.lastReached = false ∧ dir'.numBuffered ≤ F.cacheEntries := by
  have halloc := h.alloc
  rw [fatEntryDirDeinit] at hok
  dsimp only at hok
  split_ifs at hok with hC hmany hfault
  · cases hok
    refine ⟨⟨⟨(realloc_length _ _).ge, fun h0 => absurd h0 hC, fun _ => Nat.le_add_right _ _, fun j hj hjC => ?_⟩,
      Nat.zero_le _, fun j _ hj => ?_, fun _ _ => rfl, fun _ hle => ?_⟩, rfl, rfl, le_rfl⟩
    · rw [getElem?_realloc hjC (by omega)]
      exact h.cache j (by omega) hjC
    · dsimp only at hj ⊢
      rw [getElem?_realloc hj (by omega), h.cache j (by omega) hj]
      simp
    · have : F.cacheEntries + F.rdEntries ≤ 0 := hle
      omega
  · cases hok
    have hfew : dir.numBuffered ≤ F.cacheEntries := Nat.le_of_not_lt hmany
    refine ⟨⟨h.of_eq rfl rfl, Nat.zero_le _, fun j _ hj => ?_, fun _ _ => rfl, fun _ hle => ?_⟩, rfl, rfl, hfew⟩
    · have hj' : j < dir.numBuffered := hj
      rw [h.cache j hj' (by omega)]
      simp
    · have : F.cacheEntries + F.rdEntries ≤ 0 := hle
      omega

structure Rewritten (F : FatConfig) (dir : FatEntryDir) (idx : ℕ) (entry : FatEntry) (buf : List FatEntry) : Prop where
  length : buf.length = dir.buf.length
  new : ∀ j, idx < dir.numBuffered → idx < F.cacheEntries → j = idx → buf[j]? = some entry
  old : ∀ j, ¬ (idx < dir.numBuffered ∧ idx < F.cacheEntries ∧ j = idx) → buf[j]? = dir.buf[j]?

lemma Cached.write (h : Cached F stored dir) (idx : ℕ) (entry : FatEntry) :
    ∃ buf, writeFatEntry F stored idx entry (some dir) = .ok (Function.update stored idx entry, some { dir with buf }) ∧
      Rewritten F dir idx entry buf := by
  have halloc := h.alloc
  by_cases hin : idx < dir.numBuffered ∧ idx < F.cacheEntries
  · refine ⟨dir.buf.set idx entry, ?_, length_set, fun j _ _ hj => ?_, fun j hj => ?_⟩
    · rw [writeFatEntry, if_pos (by omega), fatEntryDirUpdate, if_pos hin, assert_of (by omega)]
      rfl
    · rw [hj, getElem?_set_self (by omega)]
    · rw [getElem?_set_ne (fun heq => hj ⟨hin.1, hin.2, heq.symm⟩)]
  · refine ⟨dir.buf, ?_, rfl, fun j h1 h2 => absurd ⟨h1, h2⟩ hin, fun _ _ => rfl⟩
    rw [writeFatEntry]
    split_ifs
    · rw [fatEntryDirUpdate, if_neg hin]
      rfl
    · rfl

lemma Cached.of_write (h : Cached F stored dir) (hbuf : Rewritten F dir idx entry buf) :
    Cached F (Function.update stored idx entry) { dir with buf } := by
  refine ⟨by rw [hbuf.length]; exact h.alloc, h.plain, h.bound, fun j hj hjC => ?_⟩
  by_cases hji : j = idx
  · subst hji
    rw [update_self]
    exact hbuf.new j hj hjC rfl
  · rw [update_of_ne hji]
    rw [hbuf.old j (fun hh => hji hh.2.2)]
    exact h.cache j hj hjC

lemma Ahead.of_write (h : Ahead F stored dir) (hbuf : Rewritten F dir idx entry buf)
    (hcalm : ¬ (F.cacheEntries ≤ idx ∧ dir.numTotalRead ≤ idx ∧
      idx < dir.numTotalRead + (dir.numBuffered - dir.idxCurr))) :
    Ahead F (Function.update stored idx entry) { dir with buf } := by
  refine ⟨h.toCached.of_write hbuf, h.cur, fun j hj hj' => ?_, h.fill, h.full⟩
  have hj1 : dir.idxCurr ≤ j := hj
  have hj2 : j < dir.numBuffered := hj'
  -- a buffered entry of the cache part has its own index
  have hself : ∀ m, m < F.cacheEntries → dir.numTotalRead ≤ m ∨ dir.idxCurr ≤ m → dir.idxCurr = dir.numTotalRead := by
    intro m hm hle
    by_cases htotal : dir.numTotalRead < F.cacheEntries + F.rdEntries
    · exact h.fill (by omega) htotal
    · have := h.full (by omega) (by omega)
      omega
  by_cases hm : dir.numTotalRead + (j - dir.idxCurr) = idx
  · have hidx : idx < F.cacheEntries := by
      by_contra hge
      exact hcalm ⟨by omega, by omega, by omega⟩
    have := hself idx hidx (Or.inl (by omega))
    rw [hm, update_self]
    exact hbuf.new j (by omega) hidx (by omega)
  · rw [update_of_ne hm, hbuf.old j ?_]
    · exact h.pending j hj1 hj2
    · rintro ⟨-, hidx, rfl⟩
      have := hself j hidx (Or.inr hj1)
      omega

namespace FatWorld

/-- Each call gives what is stored, or nothing after the last entry; errors come from the device or the allocator. -/
def Faithful (F : FatConfig) (w : FatWorld) : FatEvent → Prop
  | .init fault => ∀ e, fatEntryDirInit F w.stored fault w.dir = .error e → fault = some e
  | .next fault => ∀ traversal, w.traversal = some traversal → ∃ dir, w.dir = some dir ∧
      match (fatEntryDirGetNext F w.stored fault dir).1 with
      | .ok none => traversal.ended = true
      | .ok (some (entry, address)) => traversal.ended = false ∧ entry = w.stored traversal.visited ∧
          address = fatStartAddress + traversal.visited * fatEntrySize
      | .error e => fault.alloc = some e ∨ fault.read = some e
  | .deinit _ => True
  | .write idx entry => ∃ w', w.step F (.write idx entry) = .ok w'

/-- A traversal ends with the first failure, and no update hits an entry that is buffered and still to be returned. -/
def Calm (F : FatConfig) (w : FatWorld) : FatEvent → Prop
  | .next _ => ∀ traversal, w.traversal = some traversal → traversal.failed = false
  | .write idx _ => ∀ traversal, w.traversal = some traversal → traversal.ended = false → ∀ dir, w.dir = some dir →
      ¬ (F.cacheEntries ≤ idx ∧ dir.numTotalRead ≤ idx ∧ idx < dir.numTotalRead + (dir.numBuffered - dir.idxCurr))
  | _ => True

instance (F : FatConfig) (w : FatWorld) (event : FatEvent) : Decidable (w.Calm F event) := by
  unfold Calm
  split
  · exact Option.decidableForallMem _
  · exact inferInstanceAs (Decidable (∀ traversal ∈ w.traversal, _ → ∀ dir ∈ w.dir, ¬ _))
  · infer_instance

structure Coherent (F : FatConfig) (w : FatWorld) : Prop where
  rest : w.traversal = none → ∀ dir, w.dir = some dir →
    Ahead F w.stored dir ∧ dir.numTotalRead = 0 ∧ dir.lastReached = false ∧ dir.numBuffered ≤ F.cacheEntries
  running : ∀ traversal, w.traversal = some traversal → ∃ dir, w.dir = some dir ∧ Cached F w.stored dir ∧
    (traversal.failed = false → dir.lastReached = traversal.ended ∧
      (traversal.ended = false → Ahead F w.stored dir ∧ dir.numTotalRead = traversal.visited))

variable {w w' : FatWorld}

lemma Coherent.cached (h : w.Coherent F) (hdir : w.dir = some dir) : Cached F w.stored dir := by
  cases ht : w.traversal with
  | none => exact (h.rest ht dir hdir).1.toCached
  | some traversal =>
    obtain ⟨dir', hdir', hcached, -⟩ := h.running traversal ht
    rw [hdir] at hdir'
    cases hdir'
    exact hcached

variable {event : FatEvent}

lemma Coherent.faithful (hR : 0 < F.rdEntries) (h : w.Coherent F) (hcalm : w.Calm F event) : w.Faithful F event := by
  cases event with
  | init fault => exact fun e he => init_error he
  | next fault =>
    intro traversal ht
    obtain ⟨dir, hdir, -, hrun⟩ := h.running traversal ht
    obtain ⟨hended, hrun⟩ := hrun (hcalm traversal ht)
    refine ⟨dir, hdir, ?_⟩
    cases hend : traversal.ended with
    | true =>
      rw [getNext_ended fault (hended.trans hend)]
    | false =>
      obtain ⟨hahead, hvisited⟩ := hrun hend
      rcases hahead.getNext fault hR (hended.trans hend) with ⟨dir', heq, -⟩ | ⟨e, dir', heq, -, he⟩
      · rw [heq]
        exact ⟨rfl, by rw [hvisited], by rw [hvisited]⟩
      · rw [heq]
        exact he
  | deinit shrinkFault => trivial
  | write idx entry =>
    cases hdir : w.dir with
    | none =>
      refine ⟨{ w with stored := Function.update w.stored idx entry, dir := none }, ?_⟩
      rw [step, hdir, writeFatEntry]
      split_ifs <;> rfl
    | some dir =>
      obtain ⟨buf, heq, -⟩ := (h.cached hdir).write idx entry
      refine ⟨{ w with stored := Function.update w.stored idx entry, dir := some { dir with buf } }, ?_⟩
      rw [step, hdir, heq]
      rfl

lemma Coherent.step (hR : 0 < F.rdEntries) (h : w.Coherent F) (hcalm : w.Calm F event) (hok : w.step F event = .ok w') :
    w'.Coherent F := by
  unfold FatWorld.step at hok
  split at hok
  · rename_i fault ht
    split at hok
    · cases hok
      refine ⟨fun _ dir hdir => ?_, fun traversal ht' => ?_⟩
      · cases hdir
      · rw [ht] at ht'
        cases ht'
    · rename_i dir hinit
      cases hok
      have hdir : Ahead F w.stored dir ∧ dir.numTotalRead = 0 ∧ dir.lastReached = false := by
        cases hwdir : w.dir with
        | none =>
          rw [hwdir] at hinit
          exact Ahead.init hinit
        | some dir0 =>
          rw [hwdir] at hinit
          cases hinit
          have := h.rest ht dir hwdir
          exact ⟨this.1, this.2.1, this.2.2.1⟩
      refine ⟨(fun hnone => by cases hnone), fun traversal ht' => ⟨dir, rfl, hdir.1.toCached, fun _ => ?_⟩⟩
      cases ht'
      exact ⟨hdir.2.2, fun _ => ⟨hdir.1, hdir.2.1⟩⟩
  · rename_i fault traversal ht
    obtain ⟨dir, hdir, hcached, hrun⟩ := h.running traversal ht
    obtain ⟨hended, hrun⟩ := hrun (hcalm traversal ht)
    rw [hdir, orError_some, ok_bind] at hok
    cases hend : traversal.ended with
    | true =>
      rw [getNext_ended fault (hended.trans hend)] at hok
      cases hok
      refine ⟨fun hnone => ?_, fun traversal' ht' => ?_⟩
      · rw [ht] at hnone
        cases hnone
      · rw [ht] at ht'
        cases ht'
        exact ⟨dir, rfl, hcached, fun _ => ⟨hended, hrun⟩⟩
    | false =>
      obtain ⟨hahead, hvisited⟩ := hrun hend
      rcases hahead.getNext fault hR (hended.trans hend) with
        ⟨dir', heq, hahead', htotal, hlast'⟩ | ⟨e, dir', heq, hcached', -⟩
      · rw [heq] at hok
        cases hok
        refine ⟨(fun hnone => by cases hnone), fun traversal' ht' => ⟨dir', rfl, hahead'.toCached, fun _ => ?_⟩⟩
        cases ht'
        exact ⟨hlast', fun _ => ⟨hahead', by rw [htotal, hvisited]⟩⟩
      · rw [heq] at hok
        cases hok
        refine ⟨(fun hnone => by cases hnone), fun traversal' ht' => ⟨dir', rfl, hcached', fun hf => ?_⟩⟩
        cases ht'
        cases hf
  · cases hok
    refine ⟨fun _ dir hdir => ?_, (fun traversal ht => by cases ht)⟩
    cases hwdir : w.dir with
    | none =>
      rw [hwdir] at hdir
      cases hdir
    | some dir0 =>
      rw [hwdir] at hdir
      exact (h.cached hwdir).deinit hdir
  · rename_i idx entry
    cases hdir : w.dir with
    | none =>
      have heq : writeFatEntry F w.stored idx entry none = .ok (Function.update w.stored idx entry, none) := by
        rw [writeFatEntry]
        split_ifs <;> rfl
      rw [hdir, heq] at hok
      cases hok
      refine ⟨(fun _ dir hdir' => by cases hdir'), fun traversal ht => ?_⟩
      obtain ⟨dir, hdir', -⟩ := h.running traversal ht
      rw [hdir] at hdir'
      cases hdir'
    | some dir =>
      obtain ⟨buf, heq, hbuf⟩ := (h.cached hdir).write idx entry
      rw [hdir, heq] at hok
      cases hok
      refine ⟨fun ht dir' hdir' => ?_, fun traversal ht => ?_⟩
      · cases hdir'
        obtain ⟨hahead, htotal, hlast, hfew⟩ := h.rest ht dir hdir
        -- at rest only the cache is buffered
        exact ⟨hahead.of_write hbuf (by omega), htotal, hlast, hfew⟩
      · obtain ⟨dir', hdir', hcached, hrun⟩ := h.running traversal ht
        rw [hdir] at hdir'
        cases hdir'
        refine ⟨{ dir with buf }, rfl, hcached.of_write hbuf, fun hf => ?_⟩
        obtain ⟨hended, hrun⟩ := hrun hf
        refine ⟨hended, fun hend => ?_⟩
        obtain ⟨hahead, hvisited⟩ := hrun hend
        exact ⟨hahead.of_write hbuf (hcalm traversal ht hend dir hdir), hvisited⟩
  · cases hok

end FatWorld

theorem traversals_return_stored (F : FatConfig) (hR : 0 < F.rdEntries) (stored : StoredFat) (events : List FatEvent)
    (hcalm : Runs.Along (FatWorld.step F) (FatWorld.Calm F) ⟨stored, none, none⟩ events) :
    Runs.Along (FatWorld.step F) (FatWorld.Faithful F) ⟨stored, none, none⟩ events := by
  have hinit : FatWorld.Coherent F ⟨stored, none, none⟩ :=
    ⟨(fun _ dir hdir => by cases hdir), (fun traversal ht => by cases ht)⟩
  exact hcalm.imp_of_invariant hinit (fun _ _ _ hw hP hok => hw.step hR hP hok) (fun _ _ hw hP => hw.faithful hR hP)

def toyStored (i : ℕ) : FatEntry := { FatEntry.zero with flags := if i = 3 then fileIsLastEntry else 0 }

def toyEntry : FatEntry := { FatEntry.zero with flags := fileIsActive }

def toyTraversals : List FatEvent :=
  [.init none] ++ List.replicate 5 (.next ⟨none, none⟩) ++ [.deinit false, .write 0 toyEntry, .init none,
    .next ⟨none, none⟩, .deinit false]

theorem traversals_return_stored_cache_one :
    Runs.Along (FatWorld.step ⟨1, 2⟩) (FatWorld.Faithful ⟨1, 2⟩) ⟨toyStored, none, none⟩ toyTraversals :=
  traversals_return_stored ⟨1, 2⟩ (by decide) toyStored toyTraversals (by decide +kernel)

theorem buffered_entry_stale : ∃ w, Runs.run (FatWorld.step ⟨0, 2⟩) ⟨toyStored, none, none⟩
      [.init none, .next ⟨none, none⟩, .write 1 toyEntry] = .ok w ∧
    w.stored 1 = toyEntry ∧ ¬ w.Faithful ⟨0, 2⟩ (.next ⟨none, none⟩) := by
  have hrun : TeeResult.error? (do
      let w ← Runs.run (FatWorld.step ⟨0, 2⟩) ⟨toyStored, none, none⟩
        [.init none, .next ⟨none, none⟩, .write 1 toyEntry]
      let dir ← orError .panic w.dir
      assert (w.traversal = some ⟨1, false, false⟩)
      assert (w.stored 1 = toyEntry)
      assert ((fatEntryDirGetNext ⟨0, 2⟩ w.stored ⟨none, none⟩ dir).1 = .ok (some (toyStored 1, 768)))) = none := by
    decide +kernel
  obtain ⟨w, hw, hrun⟩ := ok_of_bind hrun
  obtain ⟨dir, hdir, hrun⟩ := ok_of_bind hrun
  obtain ⟨_, ht, hrun⟩ := ok_of_bind hrun
  obtain ⟨_, hentry, hrun⟩ := ok_of_bind hrun
  replace hdir := orError_eq_ok.mp hdir
  replace ht := assert_eq_ok.mp ht
  replace hentry := assert_eq_ok.mp hentry
  have hnext := of_assert hrun
  refine ⟨w, hw, hentry, fun h => ?_⟩
  obtain ⟨dir', hdir', h⟩ := h _ ht
  rw [hdir] at hdir'
  cases hdir'
  rw [hnext] at h
  have hstale : toyStored 1 = w.stored 1 := h.2.1
  rw [hentry] at hstale
  exact absurd hstale (by decide)

end Optee.Rpmb
