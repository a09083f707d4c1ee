import Optee.Storage.Syscalls

/-! The handles of several sessions on one object and the entries of the directory they point to. -/

namespace Optee.Storage

open FsHtree ReeFs ReeFs.Calls Lib.ByteStrings Lib.Effects Lib.Runs List

variable {φ : Faults} {C : Crypto} {α : Type} {t t' : Table Name} {objs : List Obj} {es es' : List Dirent}
  {fs : List (ℕ × Option ℕ)} {name : Name} {P : World → Prop} {R : Stop → Svc → Prop} {s : Svc}

def Has (es : List Dirent) (f : ℕ × Option ℕ) (name : Name) : Prop :=
  name.oid ≠ [] ∧ ∃ k x, f = (x.fileNumber, some k) ∧ EntryAt es k name x

variable {f : ℕ × Option ℕ} {k id : ℕ} {new : Name} {overwrite : Bool} {e : Stop} {i : ℕ}

lemma Has.owned (h : Has es f name) (hf : fs[i]? = some f) : Calls.Owned es fs i := by
  obtain ⟨hoid, k, x, rfl, hx⟩ := h
  intro f' hf'
  rw [hf] at hf'
  cases hf'
  exact ⟨k, x, rfl, hx.entry, by rw [hx.oid]; exact hoid⟩

lemma Has.wrote {z : Dirent} (h : Has es f name) (hw : Wrote es k z es') (hne : ∀ x, ¬EntryAt es k name x) :
    Has es' f name := by
  obtain ⟨hoid, m, x, rfl, hx⟩ := h
  refine ⟨hoid, m, x, rfl, ?_, hx.uuid, hx.oid⟩
  rw [hw m, if_neg]
  · exact hx.entry
  · rintro rfl
    exact hne x hx

lemma Has.hashed (h : Has es f name) (he : Hashed es fs i es') : Has es' f name := by
  obtain ⟨k, y, hash, -, hy, hw⟩ := he
  obtain ⟨hoid, m, x, rfl, hx⟩ := h
  by_cases hm : m = k
  · subst hm
    obtain rfl : x = y := Option.some.inj (hx.entry.symm.trans hy)
    exact ⟨hoid, m, { x with hash }, rfl, by rw [hw m, if_pos rfl], hx.uuid, hx.oid⟩
  · exact ⟨hoid, m, x, rfl, by rw [hw m, if_neg hm]; exact hx.entry, hx.uuid, hx.oid⟩

lemma Has.removed {removed : Name} (h : Has es f name) (he : Removed es removed es') (hne : name ≠ removed) :
    Has es' f name := by
  rcases he with ⟨-, rfl⟩ | ⟨k, x, hx, hw⟩
  · exact h
  · exact h.wrote hw (fun y hy => hne (hy.name_eq hx))

lemma Has.renamed {old : Name} (h : Has es f name) (he : RenamedTo es old new false es') (hne : name ≠ old) :
    Has es' f name := by
  obtain ⟨o, x, es1, -, hx, hw, ⟨-, rfl⟩ | ⟨hfalse, -⟩⟩ := he
  · exact h.wrote hw (fun y hy => hne (hy.name_eq hx))
  · cases hfalse

lemma Has.renamed_self {old : Name} (hes : NamesDistinct es) (h : Has es f old) (he : RenamedTo es old new false es') :
    Has es' f new := by
  obtain ⟨o, x, es1, hnew, hx, hw, ⟨-, rfl⟩ | ⟨hfalse, -⟩⟩ := he
  · obtain ⟨hoid, m, y, rfl, hy⟩ := h
    obtain rfl : m = o := hes ⟨hy.entry, by rw [hy.oid]; exact hoid⟩ ⟨hx.entry, by rw [hx.oid]; exact hoid⟩
      (hy.uuid.trans hx.uuid.symm) (hy.oid.trans hx.oid.symm)
    obtain rfl : y = x := Option.some.inj (hy.entry.symm.trans hx.entry)
    exact ⟨hnew, m, ⟨new.uuid, new.oid, y.hash, y.fileNumber⟩, rfl, by rw [hw m, if_pos rfl], rfl, rfl⟩
  · cases hfalse

lemma Has.created {n : ℕ} (h : Has es f name) (he : Created es new overwrite n k es') (hne : name ≠ new) :
    Has es' f name := by
  obtain ⟨hash, hw⟩ := he.wrote
  refine h.wrote hw (fun y hy => ?_)
  rcases he.place with ⟨-, x, hx⟩ | ⟨hfree, -⟩
  · exact hne (hy.name_eq hx)
  · exact hfree y ⟨hy.entry, by rw [hy.oid]; exact h.1⟩

structure Coherent (X : Option ℕ) (t : Table Name) (objs : List Obj) (fs : List (ℕ × Option ℕ)) (es : List Dirent) : Prop where
  length : objs.length = fs.length
  has : ∀ {i o f p}, some i ≠ X → objs[i]? = some o → fs[i]? = some f → p ∈ t.pobjs → p.id = o.pobj → Has es f p.name

lemma Coherent.complete (h : Coherent none t objs fs es) (hgood : t.Good objs) : Complete fs := by
  intro f hf
  obtain ⟨i, hi⟩ := mem_iff_getElem?.mp hf
  obtain ⟨hlt, -⟩ := List.getElem?_eq_some_iff.mp hi
  have ho := getElem?_eq_getElem (h.length ▸ hlt : i < objs.length)
  obtain ⟨p, hp, hid⟩ := hgood.held _ (mem_of_getElem? ho)
  obtain ⟨-, k, x, rfl, -⟩ := h.has nofun ho hi hp hid
  exact Option.some_ne_none k

lemma Coherent.mono {X : Option ℕ} (h : Coherent X t objs fs es) (ht : t'.pobjs = t.pobjs)
    (hes : ∀ f, ∀ p ∈ t.pobjs, Has es f p.name → Has es' f p.name) : Coherent X t' objs fs es' := by
  refine ⟨h.length, fun {i o f p} hi ho hf hp hid => ?_⟩
  rw [ht] at hp
  exact hes f p hp (h.has hi ho hf hp hid)

variable {o : Obj}

lemma Coherent.push (h : Coherent none t objs fs es) (hgood : t.Good objs) (hkeeps : t.Keeps t')
    (hes : ∀ f, ∀ p ∈ t.pobjs, Has es f p.name → Has es' f p.name)
    (hnew : ∀ q ∈ t'.pobjs, q.id = o.pobj → Has es' f q.name) : Coherent none t' (objs ++ [o]) (fs ++ [f]) es' := by
  refine ⟨by simp [h.length], fun {i o' f' q} _ ho hf hq hid => ?_⟩
  by_cases hi : i < objs.length
  · rw [getElem?_append_left hi] at ho
    rw [getElem?_append_left (h.length ▸ hi)] at hf
    obtain ⟨p, hp, hpid⟩ := hgood.held o' (mem_of_getElem? ho)
    rw [← hkeeps q hq p hp (hpid.trans hid.symm)]
    exact hes f' p hp (h.has nofun ho hf hp hpid)
  · have hlen : i = objs.length := by
      have hlt := (List.getElem?_eq_some_iff.mp ho).1
      rw [length_append, length_singleton] at hlt
      omega
    rw [hlen, getElem?_concat_length] at ho
    rw [hlen, h.length, getElem?_concat_length] at hf
    cases ho
    cases hf
    exact hnew q hq hid

lemma getElem?_eraseIdx_ne {β : Type} {l : List β} {i j : ℕ} {a : β} (h : (l.eraseIdx i)[j]? = some a) :
    l[if j < i then j else j + 1]? = some a := by
  rw [getElem?_eraseIdx] at h
  split_ifs at h ⊢ <;> exact h

lemma Coherent.erase (h : Coherent (some i) t objs fs es) :
    Coherent none (t.release id) (objs.eraseIdx i) (fs.eraseIdx i) es := by
  refine ⟨?_, fun {j o f q} _ ho hf hq hid => ?_⟩
  · rw [length_eraseIdx, length_eraseIdx, h.length]
  · obtain ⟨p, hp, hpid, hpname, -⟩ := Table.mem_release hq
    rw [hpname]
    refine h.has (fun heq => ?_) (getElem?_eraseIdx_ne ho) (getElem?_eraseIdx_ne hf) hp
      (hpid ▸ hid)
    have hj := Option.some.inj heq
    split_ifs at hj <;> omega

lemma Coherent.but (h : Coherent none t objs fs es) (i : ℕ) : Coherent (some i) t objs fs es :=
  ⟨h.length, fun _ => h.has nofun⟩

def Alone (objs : List Obj) (i : ℕ) (o : Obj) : Prop := ∀ j o', j ≠ i → objs[j]? = some o' → o'.pobj ≠ o.pobj

lemma Coherent.removed {p : Pobj Name} (h : Coherent none t objs fs es) (hgood : t.Good objs)
    (hp : p ∈ t.pobjs) (hid : p.id = o.pobj) (halone : Alone objs i o) (he : es' = es ∨ Removed es p.name es') :
    Coherent (some i) t objs fs es' := by
  rcases he with rfl | he
  · exact h.but i
  · refine ⟨h.length, fun {j o' f q} hj ho hf hq hid' => ?_⟩
    refine (h.has nofun ho hf hq hid').removed he (fun hname => ?_)
    refine halone j o' (fun heq => hj (congrArg some heq)) ho ?_
    rw [← hid, ← hid', hgood.names q hq p hp hname]

lemma Table.Good.alone {p : Pobj Name} (hgood : t.Good objs) (ho : objs[i]? = some o) (hp : p ∈ t.pobjs)
    (hid : p.id = o.pobj) (hone : p.refcnt = 1) : Alone objs i o := by
  intro j o' hj ho' heq
  rw [hgood.refs p hp, Table.countP_eraseIdx ho, if_pos hid.symm] at hone
  have hmem : o' ∈ objs.eraseIdx i := by
    obtain ⟨hlt, rfl⟩ := List.getElem?_eq_some_iff.mp ho'
    exact mem_eraseIdx_iff_getElem.mpr ⟨j, hlt, hj, rfl⟩
  have hpos : 0 < (objs.eraseIdx i).countP (·.pobj = p.id) := countP_pos_iff.mpr ⟨o', hmem, by simp [heq, hid]⟩
  omega

def At (t : Table Name) (objs : List Obj) (P : World → Prop) (s : Svc) : Prop := s.table = t ∧ s.objs = objs ∧ P s.fs

def Settled (s : Svc) : Prop :=
  ∃ es fs, Coherent none s.table s.objs fs es ∧ s.table.Good s.objs ∧ Steady es fs s.fs

def Ended (A : Prop) (e : Stop) (s : Svc) : Prop := e.Tame ∧ ∀ c, e = .code c → (c = .corruptObject → A) → Settled s

lemma onFs_spec {p : Fs α} {Q : α → World → Prop} {R : Stop → World → Prop} (h : Spec P p Q R) :
    Spec (At t objs P) (onFs p) (fun a => At t objs (Q a)) (fun e => At t objs (R e)) := by
  rintro s ⟨ht, ho, hw⟩
  exact Spec.zoom (h s.fs hw) (fun a w hq => ⟨ht, ho, hq⟩) (fun e w hr => ⟨ht, ho, hr⟩)

variable {A : Prop}

lemma Ended.of_settled (he : e.Tame) (h : Settled s) : Ended A e s := ⟨he, fun _ _ _ => h⟩

lemma onCode_spec {p : Sys α} {handler : TeeError → Sys Unit} {Q : α → Svc → Prop}
    (hp : Spec (At t objs (Steady es fs)) p Q (fun e => At t objs (Failed Stop.Tame (Steady es fs) e)))
    (hcode : ∀ e, Spec (At t objs (Steady es fs)) (handler e) (fun _ => Ended A (.code e)) (Ended A)) :
    Spec (At t objs (Steady es fs)) (onCode p handler) Q (Ended A) := by
  intro s hs
  have h := hp s hs
  unfold onCode
  cases hx : p s with
  | ok a s' =>
    rw [hx] at h
    exact h
  | error e s' =>
    rw [hx] at h
    cases e with
    | panic a => exact ⟨h.2.2.stop, nofun⟩
    | code e =>
      have h' := hcode e s' ⟨h.1, h.2.1, h.2.2.code e rfl⟩
      dsimp only
      cases hy : handler e s' with
      | ok u s'' | error e' s'' =>
        rw [hy] at h'
        exact h'

lemma settles {P : Svc → Prop} {p : Sys α} (h : Spec P p (fun _ => Settled) (Ended A)) (c : TeeError) :
    Spec P p (fun _ => Ended A (.code c)) (Ended A) :=
  h.post (fun _ _ hs => .of_settled (tame_code c) hs)

section Calls

variable (hcoh : Coherent none t objs fs es) (hgood : t.Good objs) {A : Prop}
include hcoh hgood

lemma settled_of_at (h : At t objs (Steady es fs) s) : Settled s := by
  obtain ⟨rfl, rfl, hs⟩ := h
  exact ⟨es, fs, hcoh, hgood, hs⟩

lemma ended_of_failed (h : At t objs (Failed Stop.Tame (Steady es fs) e) s) : Ended A e s := by
  obtain ⟨ht, ho, hs⟩ := h
  exact ⟨hs.stop, fun c hc _ => settled_of_at hcoh hgood ⟨ht, ho, hs.code c hc⟩⟩

lemma onFs_settled {p : Fs α}
    (h : Spec (Steady es fs) p (fun _ w => ∃ es', (∀ f name, Has es f name → Has es' f name) ∧ Steady es' fs w)
      (Failed Stop.Tame (Steady es fs))) :
    Spec (At t objs (Steady es fs)) (onFs p) (fun _ => Settled) (Ended A) := by
  refine (onFs_spec h).ends (fun _ s hs => ?_) (fun e s hs => ended_of_failed hcoh hgood hs)
  obtain ⟨rfl, rfl, es', hes, hs⟩ := hs
  exact ⟨es', fs, hcoh.mono rfl (fun f p _ => hes f p.name), hgood, hs⟩

lemma objGet_spec (i : ℕ) :
    Spec (At t objs (Steady es fs)) (objGet i) (fun r s => (objs[i]? = some r.1 ∧ ∃ p ∈ t.pobjs, p.id = r.1.pobj ∧
      p.name = r.2) ∧ At t objs (Steady es fs) s) (Ended A) := by
  rintro s hs
  have hset := settled_of_at hcoh hgood hs
  obtain ⟨rfl, rfl, hw⟩ := hs
  unfold objGet
  split
  · exact .of_settled (tame_code _) hset
  · next o ho =>
    split
    · exact .of_settled (tame_code _) hset
    · next p hp => exact ⟨⟨ho, p, mem_of_find?_eq_some hp, by simpa using find?_some hp, rfl⟩, rfl, rfl, hw⟩

lemma require_spec (b : Bool) (e : TeeError) :
    Spec (At t objs (Steady es fs)) (require b e) (fun _ s => b = true ∧ At t objs (Steady es fs) s) (Ended A) := by
  unfold require
  split_ifs with hb
  · exact .pure (fun s hs => ⟨hb, hs⟩)
  · exact .throw (fun s hs => .of_settled (tame_code _) (settled_of_at hcoh hgood hs))

end Calls

lemma tryFs_remove (name : Name) :
    Spec (At t objs (Steady es fs)) (tryFs (reeFsRemove φ name))
      (fun _ => At t objs (fun w => ∃ es', (es' = es ∨ Removed es name es') ∧ Steady es' fs w)) (Ended A) := by
  intro s hs
  have h := onFs_spec (reeFsRemove_steady (φ := φ) (fun _ => id) name) s hs
  unfold tryFs
  cases hx : onFs (reeFsRemove φ name) s with
  | ok u s' =>
    rw [hx] at h
    obtain ⟨ht, ho, es', hes, hw⟩ := h
    exact ⟨ht, ho, es', .inr hes, hw⟩
  | error e s' =>
    rw [hx] at h
    obtain ⟨ht, ho, hfailed⟩ := h
    cases e with
    | code c => exact ⟨ht, ho, es, .inl rfl, hfailed.code c rfl⟩
    | panic a => exact ⟨hfailed.stop, nofun⟩

lemma objClose_at (i : ℕ) (o : Obj) :
    Spec (At t objs (Steady es fs)) (objClose i o)
      (fun _ => At (t.release o.pobj) (objs.eraseIdx i) (Steady es (fs.eraseIdx i))) (Ended A) := by
  refine .bind (Q := fun _ => At t (objs.eraseIdx i) (Steady es fs)) (.modify ?_) (fun _ => ?_)
  · rintro s ⟨ht, ho, hs⟩
    exact ⟨ht, congrArg (·.eraseIdx i) ho, hs⟩
  · refine .bind (Q := fun _ => At t (objs.eraseIdx i) (Steady es (fs.eraseIdx i))) ?_ (fun _ => .modify ?_)
    · refine (onFs_spec (reeFsClose_steady (I := fun _ => False) (fun _ => id) i)).fails (fun e s hs => ⟨hs.2.2.stop, fun c hc => (hs.2.2.code c hc).elim⟩)
    · rintro s ⟨ht, ho, hs⟩
      exact ⟨congrArg (·.release o.pobj) ht, ho, hs⟩

def Sole (t : Table Name) (objs : List Obj) (i : ℕ) : Prop := ∀ p ∈ t.pobjs, objs[i]?.map Obj.pobj = some p.id → p.refcnt = 1

section Objects

variable (hcoh : Coherent none t objs fs es) (hgood : t.Good objs) {i : ℕ} {o : Obj} {p : Pobj Name} (ho : objs[i]? = some o)
  (hp : p ∈ t.pobjs) (hid : p.id = o.pobj)
include hcoh hgood ho hp hid

omit hgood in
lemma Coherent.owned : Calls.Owned es fs i := by
  intro f hf
  exact (hcoh.has nofun ho hf hp hid).owned hf f hf

lemma settled_of_closed (halone : Alone objs i o) (he : es' = es ∨ Removed es p.name es')
    (hs : At (t.release o.pobj) (objs.eraseIdx i) (Steady es' (fs.eraseIdx i)) s) : Settled s := by
  obtain ⟨ht, hobjs, hw⟩ := hs
  refine ⟨es', fs.eraseIdx i, ?_, ?_, hw⟩
  · rw [ht, hobjs]
    exact (hcoh.removed hgood hp hid halone he).erase
  · rw [ht, hobjs]
    exact hgood.release ho

omit hp hid in
lemma objClose_settled : Spec (At t objs (Steady es fs)) (objClose i o) (fun _ => Settled) (Ended A) := by
  refine (objClose_at i o).post (fun _ s hs => ?_)
  obtain ⟨ht, hobjs, hw⟩ := hs
  refine ⟨es, fs.eraseIdx i, ?_, ?_, hw⟩
  · rw [ht, hobjs]
    exact (hcoh.but i).erase
  · rw [ht, hobjs]
    exact hgood.release ho

lemma corruptHandler_ended (e : TeeError) {other : Sys Unit}
    (hother : Spec (At t objs (Steady es fs)) other (fun _ => Settled) (Ended (Sole t objs i))) :
    Spec (At t objs (Steady es fs)) (corruptOr e (removeCorruptObj i o p.name φ) other)
      (fun _ => Ended (Sole t objs i) (.code e)) (Ended (Sole t objs i)) := by
  unfold corruptOr
  split_ifs with hcorrupt
  · subst hcorrupt
    refine .bind (tryFs_remove p.name) (fun _ s hs => ?_)
    obtain ⟨ht, hobjs, es', he, hw⟩ := hs
    refine (objClose_at i o).post (fun _ s hs => ⟨tame_code _, fun c hc hsole => ?_⟩) s ⟨ht, hobjs, hw⟩
    cases hc
    refine settled_of_closed hcoh hgood ho hp hid (hgood.alone ho hp hid ?_) he hs
    exact hsole rfl p hp (by rw [ho, hid]; rfl)
  · exact settles hother e

end Objects

section Calls

variable (hcoh : Coherent none t objs fs es) (hgood : t.Good objs)
include hcoh hgood

lemma settled_pure : Spec (At t objs (Steady es fs)) (pure () : Sys Unit) (fun _ => Settled) R :=
  .pure (fun _ hs => settled_of_at hcoh hgood hs)

lemma objRead_settled (i pos len : ℕ) :
    Spec (At t objs (Steady es fs)) (objRead φ C i pos len) (fun _ => Settled) (Ended (Sole t objs i)) := by
  refine (objGet_spec hcoh hgood i).bind (fun ⟨o, name⟩ => .and_left (fun ⟨ho, p, hp, hid, hname⟩ => ?_))
  subst hname
  refine (require_spec hcoh hgood _ _).bind (fun _ => .and_left (fun _ => ?_))
  refine onCode_spec ?_ (fun e => corruptHandler_ended hcoh hgood ho hp hid e (settled_pure hcoh hgood))
  exact (onFs_spec (reeFsRead_steady (fun _ => id) i pos len)).bind (fun _ => settled_pure hcoh hgood)

lemma objTrunc_settled (i len : ℕ) (ivs : ℕ → Bytes 16) (iv : Bytes 16) :
    Spec (At t objs (Steady es fs)) (objTrunc φ C i len ivs iv) (fun _ => Settled) (Ended (Sole t objs i)) := by
  refine (objGet_spec hcoh hgood i).bind (fun ⟨o, name⟩ => .and_left (fun ⟨ho, p, hp, hid, hname⟩ => ?_))
  subst hname
  refine (require_spec hcoh hgood _ _).bind (fun _ => .and_left (fun _ => ?_))
  refine onCode_spec ?_ (fun e => corruptHandler_ended hcoh hgood ho hp hid e (settled_pure hcoh hgood))
  refine (onFs_spec (reeFsChange_steady (fun _ => id) (truncated_stable len ivs iv)
    (.inr (hcoh.owned ho hp hid)))).post (fun _ s hs => ?_)
  obtain ⟨rfl, rfl, es', hes, hs⟩ := hs
  exact ⟨es', fs, hcoh.mono rfl (fun f p _ h => h.hashed hes), hgood, hs⟩

lemma objWrite_settled (i pos : ℕ) (buf : List UInt8) (ivs : ℕ → ℕ → Bytes 16) (iv : Bytes 16) :
    Spec (At t objs (Steady es fs)) (objWrite φ C i pos buf ivs iv) (fun _ => Settled) (Ended A) := by
  refine (objGet_spec hcoh hgood i).bind (fun ⟨o, name⟩ => .and_left (fun ⟨ho, p, hp, hid, _⟩ => ?_))
  refine (require_spec hcoh hgood _ _).bind (fun _ => .and_left (fun _ => onFs_settled hcoh hgood ?_))
  refine (reeFsChange_steady (fun _ => id) (written_stable pos buf ivs iv) (.inr (hcoh.owned ho hp hid))).post
    (fun _ w hw => ?_)
  obtain ⟨es', hes, hw⟩ := hw
  exact ⟨es', fun f name h => h.hashed hes, hw⟩

lemma objDel_settled (i : ℕ) :
    Spec (At t objs (Steady es fs)) (objDel φ i) (fun _ => Settled) (Ended A) := by
  refine (objGet_spec hcoh hgood i).bind (fun ⟨o, name⟩ => .and_left (fun ⟨ho, p, hp, hid, hname⟩ => ?_))
  subst hname
  refine (require_spec hcoh hgood _ _).bind (fun _ => .and_left (fun hmeta => ?_))
  have hmem := mem_of_getElem? ho
  have halone := hgood.alone ho hp hid (hgood.exclusive p hp (hgood.writeMeta o hmem p hp hid hmeta))
  refine .bind (onCode_spec (onFs_spec (reeFsRemove_steady (fun _ => id) p.name))
    (settles (objClose_settled hcoh hgood ho))) (fun _ s hs => ?_)
  obtain ⟨ht, hobjs, es', he, hw⟩ := hs
  exact (objClose_at i o).post (fun _ s hs => settled_of_closed hcoh hgood ho hp hid halone (.inr he) hs) s ⟨ht, hobjs, hw⟩

omit hcoh hgood in
lemma pobjGet_spec (name : Name) (flags : Flags) (usage : Usage) :
    Spec (At t objs P) (pobjGet name flags usage)
      (fun id s => ∃ t', t.get name flags usage = .ok (t', id) ∧ At t' objs P s) (fun e s => (∃ c, e = .code c) ∧ At t objs P s) := by
  rintro s ⟨rfl, rfl, hs⟩
  unfold pobjGet
  split
  · next e _ => exact ⟨⟨e, rfl⟩, rfl, rfl, hs⟩
  · next t' id hget => exact ⟨t', hget, rfl, rfl, hs⟩

lemma pobjGet_ended (name : Name) (flags : Flags) (usage : Usage) :
    Spec (At t objs (Steady es fs)) (pobjGet name flags usage)
      (fun id s => ∃ t', t.get name flags usage = .ok (t', id) ∧ At t' objs (Steady es fs) s) (Ended A) := by
  refine (pobjGet_spec name flags usage).fails (fun e s hs => ?_)
  obtain ⟨⟨c, rfl⟩, hs⟩ := hs
  exact .of_settled (tame_code c) (settled_of_at hcoh hgood hs)

lemma pobjRelease_settled {flags : Flags} {usage : Usage} (hget : t.get name flags usage = .ok (t', id))
    (hes : ∀ f, ∀ p ∈ t.pobjs, Has es f p.name → Has es' f p.name) :
    Spec (At t' objs (Steady es' fs)) (pobjRelease id) (fun _ => Settled) R := by
  obtain ⟨hpobjs, hnext⟩ := hgood.release_get hget
  refine .modify (fun s hs => ?_)
  obtain ⟨rfl, rfl, hw⟩ := hs
  exact ⟨es', fs, hcoh.mono hpobjs hes, hgood.of_pobjs hpobjs hnext, hw⟩

lemma Coherent.renamed {p : Pobj Name} (hes : NamesDistinct es) (hp : p ∈ t.pobjs) (hid : p.id = o.pobj)
    (hren : RenamedTo es p.name new false es') (hpobjs : t'.pobjs = (t.update o.pobj ({ · with name := new })).pobjs) :
    Coherent none t' objs fs es' := by
  refine ⟨hcoh.length, fun {j o' f q} hj ho' hf hq hqid => ?_⟩
  rw [hpobjs] at hq
  obtain ⟨q0, hq0, rfl⟩ := Table.mem_update hq
  by_cases heq : q0.id = o.pobj
  · rw [if_pos heq] at hqid ⊢
    obtain rfl : q0 = p := hgood.ids q0 hq0 p hp (heq.trans hid.symm)
    exact (hcoh.has nofun ho' hf hp hqid).renamed_self hes hren
  · rw [if_neg heq] at hqid ⊢
    refine (hcoh.has nofun ho' hf hq0 hqid).renamed hren (fun hname => heq ?_)
    rw [hgood.names q0 hq0 p hp hname, hid]

lemma objRename_settled (i : ℕ) (oid : List UInt8) :
    Spec (At t objs (Steady es fs)) (objRename φ i oid true) (fun _ => Settled) (Ended A) := by
  refine (objGet_spec hcoh hgood i).bind (fun ⟨o, name⟩ => .and_left (fun ⟨ho, p, hp, hid, hname⟩ => ?_))
  subst hname
  refine (require_spec hcoh hgood _ _).bind (fun _ => .and_left (fun hmeta => ?_))
  refine (pobjGet_ended hcoh hgood _ _ _).bind (fun po => Spec.exists (fun t1 => .and_left (fun hget => ?_)))
  obtain ⟨hfree, t2, hren, hpobjs, hnext⟩ := hgood.rename (mem_of_getElem? ho) hmeta hget
  intro s hs
  have hdistinct : NamesDistinct es := hs.2.2.dir ▸ hs.2.2.kept.distinct.names
  have hoid : p.name.oid ≠ [] := by
    have hlt := (List.getElem?_eq_some_iff.mp ho).1
    exact (hcoh.has nofun ho (getElem?_eq_getElem (hcoh.length ▸ hlt)) hp hid).1
  refine Spec.bind (Q := fun _ => At t2 objs (fun w => ∃ es', RenamedTo es p.name ⟨p.name.uuid, oid⟩ false es' ∧ Steady es' fs w))
    (onCode_spec ?_ (settles (pobjRelease_settled hcoh hgood hget (fun _ _ _ h => h)))) (fun _ => Spec.modify (fun s hs => ?_))
    s hs
  · refine (onFs_spec (reeFsRename_steady (fun _ => id) hoid _ false)).bind (fun _ s hs => ?_)
    obtain ⟨ht, hobjs, hw⟩ := hs
    unfold pobjRename
    rw [ht, hren]
    exact ⟨rfl, hobjs, hw⟩
  · obtain ⟨rfl, rfl, es', he, hw⟩ := hs
    exact ⟨es', fs, hcoh.renamed hgood hdistinct hp hid he hpobjs, (hgood.setName _ hfree).of_pobjs hpobjs hnext, hw⟩

lemma objCreate_settled (name : Name) (flags : Flags) (prepare : Option TeeError) (c : Creation)
    (hfree : ∀ t' id, t.get name flags .usageCreate = .ok (t', id) → ∀ p ∈ t.pobjs, p.name ≠ name) :
    Spec (At t objs (Steady es fs)) (objCreate φ C name flags prepare c) (fun _ => Settled) (Ended A) := by
  refine (pobjGet_ended hcoh hgood _ _ _).bind (fun po => Spec.exists (fun t' => .and_left (fun hget => ?_)))
  replace hfree := hfree t' po hget
  have hother : ∀ {es'} f, ∀ p ∈ t.pobjs, (es' = es ∨ Removed es name es') → Has es f p.name → Has es' f p.name := by
    rintro es' f p hp (rfl | he) h
    · exact h
    · exact h.removed he (hfree p hp)
  refine .bind (Q := fun _ => At t' objs (fun w => ∃ es' n k, Created es name flags.overwrite n k es' ∧
    Steady es' (fs ++ [(n, some k)]) w))
    (onCode_spec ?_ (fun e => ?_)) (fun _ => ?_)
  · refine .bind ?_ (fun _ =>
      onFs_spec (reeFsCreate_steady (fun _ => id) (hcoh.complete hgood) name flags.overwrite c))
    cases prepare with
    | none => exact .pure (fun _ => id)
    | some e => exact .throw (fun s hs => ⟨hs.1, hs.2.1, hs.2.2.failed (tame_code e)⟩)
  · refine .bind (Q := fun _ => At t' objs (fun w => ∃ es', (es' = es ∨ Removed es name es') ∧ Steady es' fs w)) ?_
      (fun _ s hs => ?_)
    · unfold onlyIf
      split_ifs
      · exact tryFs_remove name
      · exact .pure (fun s hs => ⟨hs.1, hs.2.1, es, .inl rfl, hs.2.2⟩)
    · obtain ⟨ht, hobjs, es', he, hw⟩ := hs
      exact settles (pobjRelease_settled hcoh hgood hget (fun f p hp => hother f p hp he)) e s ⟨ht, hobjs, hw⟩
  · refine .bind (Q := fun _ => At t' (objs ++ [⟨po, flags⟩]) (fun w => ∃ es' n k,
      Created es name flags.overwrite n k es' ∧ Steady es' (fs ++ [(n, some k)]) w)) (.modify ?_) (fun _ => .modify ?_)
    · rintro s ⟨ht, hobjs, hw⟩
      exact ⟨ht, congrArg (· ++ [⟨po, flags⟩]) hobjs, hw⟩
    · rintro s ⟨rfl, hobjs, es', n, k, he, hw⟩
      obtain ⟨hgood', q, hq, hqid, hqname⟩ := hgood.get_create hget
      refine ⟨es', fs ++ [(n, some k)], ?_, hobjs.symm ▸ hgood', hw⟩
      rw [show ({ s with table := s.table.createFinal po } : Svc).objs = objs ++ [⟨po, flags⟩] from hobjs]
      refine hcoh.push hgood (hgood.keeps_get (by decide) hget).createFinal (fun f p hp h => h.created he (hfree p hp))
        (fun q' hq' hq'id => ?_)
      rw [hgood'.ids q' hq' q hq (hq'id.trans hqid.symm), hqname]
      obtain ⟨hash, hw⟩ := he.wrote
      exact ⟨he.oid, k, ⟨name.uuid, name.oid, hash, n⟩, rfl, by rw [hw k, if_pos rfl], rfl, rfl⟩

omit hcoh hgood in
lemma readHead_at (i : ℕ) (head : Head) :
    Preserves (At t objs (Steady es fs)) (readHead φ C i head)
      (fun e => At t objs (Failed Stop.Tame (Steady es fs) e)) := by
  refine (onFs_spec (reeFsRead_steady (fun _ => id) _ _ _)).bind (fun _ =>
    (onFs_spec (reeFsRead_steady (fun _ => id) _ _ _)).bind (fun _ => ?_))
  cases head.verdict with
  | none => exact .pure (fun _ => id)
  | some e => exact .throw (fun s hs => ⟨hs.1, hs.2.1, hs.2.2.failed (tame_code e)⟩)

omit hcoh hgood in
lemma Ended.imp {A B : Prop} (h : Ended B e s) (hAB : A → B) : Ended A e s :=
  ⟨h.1, fun c hc hA => h.2 c hc (fun hcorrupt => hAB (hA hcorrupt))⟩

omit hcoh in
lemma sole_of_unused {flags : Flags} (hget : t.get name flags .usageOpen = .ok (t', id))
    (hfree : ∀ p ∈ t.pobjs, p.name ≠ name) : Sole t' (objs ++ [⟨id, flags⟩]) objs.length := by
  intro q hq hid
  rw [getElem?_concat_length] at hid
  replace hid := Option.some.inj hid
  rcases Table.get_cases (by decide) hget with ⟨p, hp, hname, -⟩ | ⟨-, rfl, rfl⟩
  · exact absurd hname (hfree p hp)
  · rcases mem_append.mp hq with hq | hq
    · exact absurd hid (hgood.fresh q hq).ne'
    · rw [mem_singleton.mp hq]

omit hcoh hgood in
lemma objOpened_settled {q : Pobj Name} (hcoh' : Coherent none t' (objs ++ [o]) (fs ++ [f]) es)
    (hgood' : t'.Good (objs ++ [o])) (hq : q ∈ t'.pobjs) (hqid : q.id = o.pobj)
    (hsole : A → Sole t' (objs ++ [o]) objs.length) (head : Head) :
    Spec (At t' (objs ++ [o]) (Steady es (fs ++ [f]))) (do
      let i := (← get).objs.length - 1
      onCode (readHead φ C i head) (fun e => corruptOr e (removeCorruptObj i o q.name φ) (objClose i o)))
      (fun _ => Settled) (Ended A) := by
  refine .bind (Q := fun s0 s => s0.objs.length - 1 = objs.length ∧ At t' (objs ++ [o]) (Steady es (fs ++ [f])) s)
    (.get (fun s hs => ⟨?_, hs⟩)) (fun s0 => .and_left (fun hi => ?_))
  · rw [hs.2.1, length_append, length_singleton, Nat.add_sub_cancel]
  · rw [hi]
    have ho : (objs ++ [o])[objs.length]? = some o := getElem?_concat_length
    refine onCode_spec ((readHead_at _ head).post (fun _ s hs => settled_of_at hcoh' hgood' hs)) (fun e => ?_)
    exact (corruptHandler_ended hcoh' hgood' ho hq hqid e (objClose_settled hcoh' hgood' ho)).ends
      (fun _ s hs => hs.imp hsole) (fun _ s hs => hs.imp hsole)

lemma objOpen_settled (hoid : name.oid ≠ []) (flags : Flags) (head : Head) :
    Spec (At t objs (Steady es fs)) (objOpen φ C name flags head) (fun _ => Settled)
      (Ended (∀ p ∈ t.pobjs, p.name ≠ name)) := by
  refine (pobjGet_ended hcoh hgood _ _ _).bind (fun po => Spec.exists (fun t' => .and_left (fun hget => ?_)))
  obtain ⟨hgood', q, hq, hqid, rfl⟩ := hgood.get_open hget
  refine .bind
    (onCode_spec (onFs_spec (reeFsOpen_steady (fun _ => id) q.name)) (fun e => ?_))
    (fun _ => ?_)
  · refine .bind (Q := fun _ => At t' objs (fun w => ∃ es', (es' = es ∨ e = .corruptObject ∧ Removed es q.name es') ∧
      Steady es' fs w)) ?_ (fun _ => .modify (fun s hs => ⟨tame_code _, fun c hc hfree => ?_⟩))
    · unfold onlyIf
      split_ifs with hcorrupt
      · refine (tryFs_remove q.name).post (fun _ s hs => ?_)
        obtain ⟨ht, hobjs, es', he, hw⟩ := hs
        exact ⟨ht, hobjs, es', he.imp_right (fun he => ⟨hcorrupt, he⟩), hw⟩
      · exact .pure (fun s hs => ⟨hs.1, hs.2.1, es, .inl rfl, hs.2.2⟩)
    · obtain ⟨ht, hobjs, es', he, hw⟩ := hs
      cases hc
      have hsettled : Spec (At t' objs (Steady es' fs)) (pobjRelease po) (fun _ => Settled) (fun _ _ => True) := by
        refine pobjRelease_settled hcoh hgood hget (fun f p hp h => ?_)
        rcases he with rfl | ⟨hcorrupt, he⟩
        · exact h
        · exact h.removed he (hfree hcorrupt p hp)
      exact hsettled s ⟨ht, hobjs, hw⟩
  · refine .bind (Q := fun _ s => ∃ f, Opened es q.name f ∧ At t' (objs ++ [⟨po, flags⟩]) (Steady es (fs ++ [f])) s)
      (.modify ?_) (fun _ => Spec.exists (fun f => .and_left (fun hf => ?_)))
    · rintro s ⟨ht, hobjs, f, hf, hw⟩
      exact ⟨f, hf, ht, congrArg (· ++ [⟨po, flags⟩]) hobjs, hw⟩
    · refine objOpened_settled (hcoh.push hgood (hgood.keeps_get (by decide) hget) (fun _ _ _ h => h) ?_) hgood' hq
        hqid (sole_of_unused hgood hget) head
      intro q' hq' hid
      rw [hgood'.ids q' hq' q hq (hid.trans hqid.symm)]
      rcases hf with ⟨hnil, -⟩ | ⟨k, x, hx, rfl⟩
      · exact absurd hnil hoid
      · exact ⟨hoid, k, x, rfl, hx⟩

lemma nextEnum_settled (uuid : Uuid) (j : ℕ) (head : Head) :
    Spec (At t objs (Steady es fs)) (nextEnum φ C uuid j head) (fun _ => Settled) (Ended A) := by
  refine .bind ((onFs_spec (reeFsReaddir_steady (fun _ => id) j)).fails (fun e s hs => ended_of_failed hcoh hgood hs)) (fun oid => ?_)
  refine (pobjGet_ended hcoh hgood _ _ _).bind (fun po => Spec.exists (fun t' => .and_left (fun hget => ?_)))
  have hrelease : ∀ {R}, Spec (At t' objs (Steady es fs)) (pobjRelease po) (fun _ => Settled) R :=
    pobjRelease_settled hcoh hgood hget (fun _ _ _ h => h)
  refine .bind
    (onCode_spec (onFs_spec (reeFsOpen_steady (fun _ => id) _)) (settles hrelease)) (fun _ s hs => ?_)
  · obtain ⟨ht, hobjs, f, -, hw⟩ := hs
    have hclose : Spec (At t' objs (Steady es (fs ++ [f]))) (onFs (reeFsClose fs.length)) (fun _ => At t' objs (Steady es fs))
        (Ended A) := by
      refine (onFs_spec (reeFsClose_steady (I := fun _ => False) (fun _ => id) _)).ends
        (fun _ s hs => ?_) (fun e s hs => ⟨hs.2.2.stop, fun c hc => (hs.2.2.code c hc).elim⟩)
      rw [eraseIdx_append_of_length_le le_rfl, Nat.sub_self, eraseIdx_zero, tail_cons, append_nil] at hs
      exact hs
    refine Spec.bind (Q := fun s0 s => s0.fs.files.length - 1 = fs.length ∧ At t' objs (Steady es (fs ++ [f])) s)
      (Spec.get (fun s hs => ⟨?_, hs⟩)) (fun s0 => Spec.and_left (fun hi => ?_)) s ⟨ht, hobjs, hw⟩
    · have hlen := congrArg List.length hs.2.2.files
      rw [World.idents, length_map, length_append, length_singleton] at hlen
      rw [hlen, Nat.add_sub_cancel]
    · rw [hi]
      exact .bind (onCode_spec (readHead_at fs.length head) (settles (hclose.bind (fun _ => hrelease))))
        (fun _ => hclose.bind (fun _ => hrelease))

end Calls

variable (φ C)

def codeOf : EStateM.Result Stop Svc α → Option TeeError
  | .error (.code e) _ => some e
  | _ => none

/-- No object is created over one that is open, none is found corrupt while it is open elsewhere, and a renamed file
takes its object along. -/
def Event.Permitted (s : Svc) : Event → Prop
  | .obtain name flags head => name.oid ≠ [] ∧
      (codeOf (objOpen φ C name flags head s) = some .corruptObject → ∀ p ∈ s.table.pobjs, p.name ≠ name)
  | .create name flags _ _ => flags.overwrite = true → (s.table.get name flags .usageCreate).error? = none →
      ∀ p ∈ s.table.pobjs, p.name ≠ name
  | .read i pos len => codeOf (objRead φ C i pos len s) = some .corruptObject → Sole s.table s.objs i
  | .trunc i len ivs iv => codeOf (objTrunc φ C i len ivs iv s) = some .corruptObject → Sole s.table s.objs i
  | .rename _ _ memory => memory = true
  | _ => True

instance Event.decidablePermitted (s : Svc) (e : Event) : Decidable (e.Permitted φ C s) := by
  unfold Event.Permitted Sole
  split <;> infer_instance

/-- The directory, open or committed, has at the index of every open file an entry in use with the number of the file
and the name of the object. -/
structure Svc.EntriesKept (s : Svc) : Prop where
  entry : ∀ {i : ℕ} {o : Obj} {h : OpenFile} {p : Pobj Name}, s.objs[i]? = some o → s.fs.files[i]? = some h →
    p ∈ s.table.pobjs → p.id = o.pobj → ∃ (k : ℕ) (x : Dirent), h.dfh.idx = some k ∧ s.fs.committed[k]? = some x ∧
      x.fileNumber = h.dfh.fileNumber ∧ x.uuid = p.name.uuid ∧ x.oid = p.name.oid ∧ x.oid ≠ []
  dirh : ∀ d, s.fs.dirh = some d → d.dents = s.fs.committed

variable {φ C}

lemma Settled.entriesKept (h : Settled s) : s.EntriesKept := by
  obtain ⟨es, fs, hcoh, hgood, hw⟩ := h
  have hes : s.fs.committed = es := hw.dir
  refine ⟨fun {i o h p} ho hf hp hid => ?_, fun d hd => (hw.dirh d hd).2.trans hes.symm⟩
  have hfs : fs[i]? = some h.ident := by
    rw [← hw.files, World.idents, getElem?_map, hf]
    rfl
  obtain ⟨hoid, k, x, hident, hx⟩ := hcoh.has (fun h => by cases h) ho hfs hp hid
  obtain ⟨hnum, hidx⟩ := Prod.mk.inj hident
  exact ⟨k, x, hidx, hes ▸ hx.entry, hnum.symm, hx.uuid, hx.oid, by rw [hx.oid]; exact hoid⟩

lemma exec_settled {e : Event} (hs : Settled s) (he : e.Permitted φ C s) :
    Ends (fun _ => Settled) (fun x s' => x.Tame ∧ ∀ c, x = .code c → Settled s') (e.exec φ C s) := by
  obtain ⟨es, fs, hcoh, hgood, hw⟩ := hs
  have hat : At s.table s.objs (Steady es fs) s := ⟨rfl, rfl, hw⟩
  have hplain : ∀ {p : Sys Unit}, Ends (fun _ => Settled) (Ended True) (p s) →
      Ends (fun _ => Settled) (fun x s' => x.Tame ∧ ∀ c, x = .code c → Settled s') (p s) :=
    fun h => h.mono (fun _ _ => id) (fun x s' hx => ⟨hx.1, fun c hc => hx.2 c hc (fun _ => trivial)⟩)
  have hcode : ∀ {p : Sys Unit} {A : Prop}, Ends (fun _ => Settled) (Ended A) (p s) →
      (codeOf (p s) = some .corruptObject → A) →
      Ends (fun _ => Settled) (fun x s' => x.Tame ∧ ∀ c, x = .code c → Settled s') (p s) := by
    intro p A h hA
    cases hx : p s with
    | ok a s' =>
      rw [hx] at h
      exact h
    | error x s' =>
      rw [hx] at h hA
      refine ⟨h.1, fun c hc => h.2 c hc ?_⟩
      rintro rfl
      subst hc
      exact hA rfl
  have hfs : ∀ {p : Fs Unit}, Preserves (Steady es fs) p (Failed Stop.Tame (Steady es fs)) →
      Ends (fun _ => Settled) (Ended True) (onFs p s) :=
    fun hp => onFs_settled hcoh hgood (hp.post (fun _ w hw => ⟨es, fun _ _ h => h, hw⟩)) s hat
  cases e with
  | obtain name flags head => exact hcode (objOpen_settled hcoh hgood he.1 flags head s hat) he.2
  | create name flags prepare c =>
    refine hplain (objCreate_settled hcoh hgood name flags prepare c (fun t' id hget => ?_) s hat)
    rcases Table.get_cases (by decide) hget with ⟨p, hp, hname, -, -, -, -, hover⟩ | ⟨hfree, -⟩
    · exact he (hover rfl) (by rw [hget]; rfl)
    · exact hfree
  | del i => exact hplain (objDel_settled hcoh hgood i s hat)
  | rename i oid memory =>
    cases he
    exact hplain (objRename_settled hcoh hgood i oid s hat)
  | read i pos len => exact hcode (objRead_settled hcoh hgood i pos len s hat) he
  | write i pos buf ivs iv => exact hplain (objWrite_settled hcoh hgood i pos buf ivs iv s hat)
  | trunc i len ivs iv => exact hcode (objTrunc_settled hcoh hgood i len ivs iv s hat) he
  | close i =>
    refine hplain (((objGet_spec hcoh hgood i).bind (fun ⟨o, name⟩ => .and_left (fun ho => ?_))) s hat)
    exact objClose_settled hcoh hgood ho.1
  | startEnum uuid => exact hplain (hfs (reeFsOpendir_steady (fun _ => id) uuid))
  | nextEnum uuid j head => exact hplain (nextEnum_settled hcoh hgood uuid j head s hat)
  | freeEnum j => exact hplain (hfs (reeFsClosedir_steady (fun _ => id) j))

lemma step_settled {s' : Svc} {e : Event} (hs : Settled s) (he : e.Permitted φ C s) (h : Svc.step φ C s e = .ok s') :
    Settled s' := by
  have hends := exec_settled hs he
  unfold Svc.step at h
  cases hx : e.exec φ C s with
  | ok u s1 =>
    rw [hx] at h hends
    cases h
    exact hends
  | error x s1 =>
    rw [hx] at h hends
    cases x with
    | code c =>
      cases h
      exact hends.2 c rfl
    | panic a => cases h

theorem shared_handles_keep_entries (φ : Faults) (C : Crypto) (s : HostStorage) (inodeCount : ℕ)
    (hs : ∀ es, s.dir = some es → Distinct es) (events : List Event)
    (hevents : Along (Svc.step φ C) (fun s e => e.Permitted φ C s) (Svc.boot s inodeCount) events) :
    Along (Svc.step φ C) (fun s e => s.EntriesKept ∧ ∀ a s', e.exec φ C s = .error (.panic a) s' → a ≠ .fileNumber ∧ a ≠ .fileBit)
      (Svc.boot s inodeCount) events := by
  have hboot : Settled (Svc.boot s inodeCount) := by
    refine ⟨s.dir.getD [], [], ⟨rfl, nofun⟩, ⟨nofun, nofun, nofun, nofun, nofun, nofun, nofun, nofun, nofun⟩, ?_⟩
    exact ⟨⟨nofun, hs, by simpa [Svc.boot, World.boot] using hs⟩, nofun, rfl, rfl⟩
  refine hevents.imp_of_invariant hboot (fun s e s' hs he => step_settled hs he) (fun s e hs he => ⟨hs.entriesKept, ?_⟩)
  intro a s' hpanic
  have hends := exec_settled hs he
  rw [hpanic] at hends
  exact ⟨fun h => hends.1.1 (by rw [h]), fun h => hends.1.2 (by rw [h])⟩

def sharedFlags : Flags := ⟨true, true, false, true, true, false⟩

def toyEvents : List Event :=
  [.create toyName sharedFlags none toyCreation, .obtain toyName sharedFlags ⟨0, none⟩,
    .write 0 0 [1] (fun _ _ => zeroBytes 16) (zeroBytes 16)]

theorem shared_handles_keep_entries_toy :
    Along (Svc.step (fun _ => none) toyCrypto) (fun s e => s.EntriesKept ∧
      ∀ a s', e.exec (fun _ => none) toyCrypto s = .error (.panic a) s' → a ≠ .fileNumber ∧ a ≠ .fileBit)
      (Svc.boot toyStorage 0) toyEvents :=
  shared_handles_keep_entries (fun _ => none) toyCrypto toyStorage 0 nofun toyEvents (by decide +kernel)

def panicIn : Except Panic Svc → Option Panic
  | .ok _ => none
  | .error a => some a

theorem write_after_overwrite :
    panicIn (run (Svc.step (fun _ => none) toyCrypto) (Svc.boot toyStorage 0)
      [.create toyName sharedFlags none toyCreation, .create toyName { sharedFlags with overwrite := true } none toyCreation,
        .write 0 0 [1] (fun _ _ => zeroBytes 16) (zeroBytes 16)]) = some .fileNumber := by
  decide +kernel

end Optee.Storage
