import Optee.Pkcs11.KeyCommands

/-! What the commands keep of the attributes of objects. -/

namespace Optee.Pkcs11.Keys

open List

variable {h h' head temp : Attrs} {id id' : UInt32} {v : List UInt8} {α β ε : Type}

lemma bind_ok {x : Except ε α} {f : α → Except ε β} {b : β} :
    x >>= f = .ok b ↔ ∃ a, x = .ok a ∧ f a = .ok b := by
  cases x with
  | error e | ok a => simp [bind, Except.bind]

lemma map_ok {x : Except ε α} {f : α → β} {b : β} : x.map f = .ok b ↔ ∃ a, x = .ok a ∧ f a = b := by
  cases x with
  | error e | ok a => simp [Except.map]

lemma foldlM_ok {f : β → α → Except ε β} {I : β → Prop} {xs : List α} {b c : β}
    (hf : ∀ b c, ∀ a ∈ xs, I b → f b a = .ok c → I c) (hb : I b) (h : xs.foldlM f b = .ok c) : I c := by
  induction xs generalizing b with
  | nil =>
    cases h
    exact hb
  | cons a xs ih =>
    obtain ⟨b', hb', hrest⟩ := bind_ok.mp h
    exact ih (fun b c a ha => hf b c a (mem_cons_of_mem _ ha)) (hf b b' a mem_cons_self hb hb') hrest

lemma lookup_eq_none : h.lookup id = none ↔ id ∉ h.map Prod.fst := by
  rw [lookup_eq_none_iff]
  simp only [mem_map, not_exists, not_and, bne_iff_ne]
  exact forall₂_congr fun _ _ => ne_comm

lemma mem_of_lookup (hv : h.lookup id = some v) : (id, v) ∈ h := by
  obtain ⟨l1, l2, rfl, -⟩ := lookup_eq_some_iff.mp hv
  simp

lemma lookup_append_other (hne : id ≠ id') : (h ++ [(id', v)]).lookup id = h.lookup id := by
  have hnone : List.lookup id [(id', v)] = none := lookup_eq_none.mpr (by simpa using hne)
  rw [lookup_append, hnone, Option.or_none]

lemma lookup_eraseP (hne : id ≠ id') : (h.eraseP (·.1 = id')).lookup id = h.lookup id := by
  induction h with
  | nil => rfl
  | cons a h ih =>
    by_cases ha : a.1 = id'
    · rw [eraseP_cons_of_pos (by simpa using ha), lookup_cons, beq_false_of_ne (ha ▸ hne)]
    · rw [eraseP_cons_of_neg (by simpa using ha), lookup_cons, lookup_cons, ih]

lemma lookup_setAttribute_other (hne : id ≠ id') : (setAttribute h id' v).lookup id = h.lookup id := by
  rw [setAttribute, lookup_append_other hne, lookup_eraseP hne]

lemma keys_eraseP : (h.eraseP (·.1 = id)).map Prod.fst = (h.map Prod.fst).erase id := by
  rw [erase_eq_eraseP', eraseP_map]
  rfl

structure Tidy (h : Attrs) : Prop where
  clean : Clean h
  once : ∀ b ∈ boolprops, (h.map Prod.fst).count b ≤ 1

namespace Tidy

lemma nil : Tidy [] := ⟨by simp [Clean], by simp⟩

section

variable (hh : Tidy h)
include hh

lemma append_other (hid : id ∉ boolprops) (v : List UInt8) : Tidy (h ++ [(id, v)]) where
  clean a ha hb := by
    obtain ha | ha := mem_append.mp ha
    · exact hh.clean a ha hb
    · rw [mem_singleton.mp ha] at hb
      exact absurd hb hid
  once b hb := by
    have hne : id ≠ b := fun he => hid (he ▸ hb)
    simpa [count_singleton, hne] using hh.once b hb

lemma append_bool (hnone : h.lookup id = none) (hv : v = [0] ∨ v = [1]) : Tidy (h ++ [(id, v)]) where
  clean a ha hb := by
    obtain ha | ha := mem_append.mp ha
    · exact hh.clean a ha hb
    · rwa [mem_singleton.mp ha]
  once b hb := by
    rw [map_append, count_append]
    by_cases he : id = b
    · subst he
      rw [count_eq_zero.mpr (lookup_eq_none.mp hnone)]
      simp
    · simpa [count_singleton, he] using hh.once b hb

lemma eraseP : Tidy (h.eraseP (·.1 = id)) where
  clean a ha := hh.clean a (mem_of_mem_eraseP ha)
  once b hb := (List.Sublist.count_le b (eraseP_sublist.map _)).trans (hh.once b hb)

lemma lookup_eraseP_self (hid : id ∈ boolprops) : (h.eraseP (·.1 = id)).lookup id = none := by
  have hone := hh.once id hid
  rw [lookup_eq_none, keys_eraseP, ← count_eq_zero, count_erase_self]
  omega

lemma setAttribute (hv : id ∈ boolprops → v = [0] ∨ v = [1]) : Tidy (setAttribute h id v) := by
  by_cases hid : id ∈ boolprops
  · exact hh.eraseP.append_bool (hh.lookup_eraseP_self hid) (hv hid)
  · exact hh.eraseP.append_other hid v

lemma lookup_setAttribute (hid : id ∈ boolprops) : (Keys.setAttribute h id v).lookup id = some v := by
  rw [Keys.setAttribute, lookup_append, hh.lookup_eraseP_self hid]
  simp

lemma lookup_of_mem (hid : id ∈ boolprops) (hv : (id, v) ∈ h) : h.lookup id = some v := by
  obtain ⟨l1, l2, rfl⟩ := append_of_mem hv
  have hone := hh.once id hid
  rw [map_append, count_append, map_cons, count_cons_self] at hone
  rw [lookup_append, lookup_eq_none.mpr (count_eq_zero.mp (by omega))]
  simp

lemma modify (hhead : Clean head) : Tidy (modifyAttributesList h head) := by
  induction head generalizing h with
  | nil => exact hh
  | cons a head ih =>
    exact ih (hh.setAttribute (hhead a mem_cons_self)) (fun b hb => hhead b (mem_cons_of_mem _ hb))

end

end Tidy

lemma lookup_modify_other (hid : id ∉ head.map Prod.fst) : (modifyAttributesList h head).lookup id = h.lookup id := by
  induction head generalizing h with
  | nil => rfl
  | cons a head ih =>
    rw [map_cons, mem_cons, not_or] at hid
    exact (ih hid.2).trans (lookup_setAttribute_other hid.1)

lemma Tidy.lookup_modify (hh : Tidy h) (hhead : Clean head) (hid : id ∈ boolprops) (hmem : id ∈ head.map Prod.fst) :
    ∃ v, (modifyAttributesList h head).lookup id = some v ∧ (id, v) ∈ head := by
  induction head generalizing h with
  | nil => cases hmem
  | cons a head ih =>
    have hrest : Clean head := fun b hb => hhead b (mem_cons_of_mem _ hb)
    by_cases hlater : id ∈ head.map Prod.fst
    · obtain ⟨v, hv, hin⟩ := ih (hh.setAttribute (hhead a mem_cons_self)) hrest hlater
      exact ⟨v, hv, mem_cons_of_mem _ hin⟩
    · obtain rfl := (mem_cons.mp hmem).resolve_right hlater
      exact ⟨a.2, (lookup_modify_other hlater).trans (hh.lookup_setAttribute hid), mem_cons_self⟩

variable {parent : Attrs} {a : UInt32 × List UInt8}

lemma Tidy.idOrHint {found hint : List UInt8} (hh : Tidy h) (hid : id ∉ boolprops) :
    Tidy (h ++ idOrHint id found hint) := by
  unfold Keys.idOrHint
  split_ifs
  · exact hh.append_other hid _
  · exact hh.append_other hid _
  · rwa [append_nil]

lemma tidy_sanitizeClientObject {fmt : Format} {src : Attrs} {c t : List UInt8}
    (hs : sanitizeClientObject fmt src c t = .ok h) : Tidy h := by
  obtain ⟨d, hd, hs⟩ := bind_ok.mp hs
  obtain ⟨e, he, hs⟩ := bind_ok.mp hs
  have htidy : Tidy d := by
    obtain ⟨found, -, hd⟩ := bind_ok.mp hd
    obtain ⟨type, -, hd⟩ := bind_ok.mp hd
    cases hd
    exact (Tidy.nil.idOrHint (by decide)).idOrHint (by decide)
  have htidy : Tidy e := by
    refine foldlM_ok (fun b c a _ hb hc => ?_) htidy he
    split_ifs at hc
    · split at hc
      · next hnone =>
        cases hc
        exact hb.append_bool hnone (by cases a.2.headD 0 != 0 <;> simp [boolByte])
      · split_ifs at hc
        cases hc
        exact hb
    · cases hc
      exact hb
  refine foldlM_ok (fun b c a _ hb hc => ?_) htidy hs
  split_ifs at hc with hskip hind hvalid
  · cases hc
    exact hb
  · obtain ⟨v, -, rfl⟩ := map_ok.mp hc
    exact hb.append_other (fun h => hskip (.inr (.inr h))) v
  · cases hc
    exact hb.append_other (fun h => hskip (.inr (.inr h))) a.2

variable {f : Function}

lemma Tidy.addParentTemplate {fmt : Format} (ht : Tidy temp)
    (hs : addParentTemplate fmt f parent temp = .ok h) : Tidy h := by
  have href : ∀ b, attributesMatchAddReference temp (fmt.attrsOf b) = .ok h → Tidy h := by
    intro b hb
    refine foldlM_ok (I := Tidy) (fun d e a ha hd he => ?_) ht hb
    split at he
    · next hnone =>
      cases he
      by_cases hid : a.1 ∈ boolprops
      · exact hd.append_bool hnone ((fmt.clean b) a ha hid)
      · exact hd.append_other hid a.2
    · split_ifs at he
      cases he
      exact hd
  unfold Keys.addParentTemplate at hs
  dsimp only at hs
  split at hs
  · split_ifs at hs
    · cases hs
      exact ht
    · exact href _ hs
  · split_ifs at hs
    · cases hs
      exact ht
    · exact href _ hs
  · cases hs
    exact ht

lemma Tidy.sanitizeSymmKeyAttributes (ht : Tidy temp)
    (hs : sanitizeSymmKeyAttributes temp f = .ok h) : Tidy h := by
  unfold Keys.sanitizeSymmKeyAttributes at hs
  split_ifs at hs
  · cases hs
    exact ht
  split at hs
  · split_ifs at hs
    cases hs
    exact ht.append_other (by decide) _
  · cases hs
  · cases hs
  · cases hs
    exact ht

section Create

def Parts.others (p : Parts) : List UInt32 := p.mandated ++ p.orNull ++ p.optional

def Parts.Proper (p : Parts) : Prop := p.others.all (· ∉ Keys.boolprops) = true

lemma Parts.Proper.notMem {p : Parts} (hp : p.Proper) (hid : id ∈ p.others) : id ∉ Keys.boolprops :=
  of_decide_eq_true (all_eq_true.mp hp id hid)

lemma mapM_keys {f : UInt32 → Except Rc (UInt32 × List UInt8)} (hf : ∀ id a, f id = .ok a → a.1 = id) {ids : List UInt32}
    {l : Attrs} (hl : ids.mapM f = .ok l) : l.map Prod.fst = ids ∧ ∀ a ∈ l, f a.1 = .ok a := by
  induction ids generalizing l with
  | nil =>
    cases hl
    simp
  | cons id ids ih =>
    rw [mapM_cons] at hl
    obtain ⟨a, ha, hl⟩ := bind_ok.mp hl
    obtain ⟨l', hl', hl⟩ := bind_ok.mp hl
    cases hl
    obtain ⟨hkeys, hall⟩ := ih hl'
    exact ⟨by rw [map_cons, hkeys, hf id a ha], forall_mem_cons.mpr ⟨by rwa [hf id a ha], hall⟩⟩

lemma importBoolprop_ok (ha : importBoolprop temp id = .ok a) :
    a.1 = id ∧ (Clean temp → id ∈ boolprops → a.2 = [0] ∨ a.2 = [1]) := by
  unfold importBoolprop at ha
  split at ha
  · next v hv =>
    split_ifs at ha
    cases ha
    refine ⟨rfl, fun ht hid => ?_⟩
    obtain rfl | rfl := ht _ (mem_of_lookup hv) hid <;> simp
  · split at ha
    · next v hv =>
      cases ha
      refine ⟨rfl, fun _ _ => ?_⟩
      unfold defaultBoolprop at hv
      split_ifs at hv
      · exact .inr (Option.some.inj hv).symm
      · exact .inl (Option.some.inj hv).symm
    · cases ha

lemma mandatory_ok (ha : mandatory temp id = .ok a) : a.1 = id := by
  unfold mandatory at ha
  split at ha
  · cases ha
    rfl
  · cases ha

lemma optional_keys (ids : List UInt32) : ((optional temp ids).map Prod.fst).Sublist ids := by
  induction ids with
  | nil => simp [optional]
  | cons id ids ih =>
    unfold optional
    rw [filterMap_cons]
    cases temp.lookup id with
    | none => exact ih.cons id
    | some v => exact ih.cons_cons id

lemma Parts.attrs_ok {p : Parts} {l : Attrs} (hl : p.attrs temp = .ok l) :
    (l.map Prod.fst).Sublist (p.boolprops ++ p.others) ∧ (p.Proper → Clean temp → Clean l) := by
  obtain ⟨bools, hb, hl⟩ := bind_ok.mp hl
  obtain ⟨mandated, hm, hl⟩ := bind_ok.mp hl
  cases hl
  obtain ⟨hbools, hall⟩ := mapM_keys (fun _ _ ha => (importBoolprop_ok ha).1) hb
  obtain ⟨hmand, -⟩ := mapM_keys (fun _ _ ha => mandatory_ok ha) hm
  have hnull : (optOrNull temp p.orNull).map Prod.fst = p.orNull := by simp [optOrNull, Function.comp_def]
  have hothers : ((mandated ++ optOrNull temp p.orNull ++ Keys.optional temp p.optional).map Prod.fst).Sublist p.others := by
    rw [map_append, map_append, hmand, hnull]
    exact (List.Sublist.refl _).append (optional_keys _)
  refine ⟨?_, fun hp ht a ha hid => ?_⟩
  · rw [map_append, hbools]
    exact (List.Sublist.refl _).append hothers
  · obtain ha | ha := mem_append.mp ha
    · exact (importBoolprop_ok (hall a ha)).2 ht hid
    · exact absurd hid (hp.notMem (hothers.subset (mem_map_of_mem ha)))

def allParts : List (List Parts) :=
  [[anyObject, rawData], [anyObject, anyKey, symmKey], [anyObject, anyKey, publicKey, rsaPublicKey],
    [anyObject, anyKey, publicKey, ecPublicKey], [anyObject, anyKey, privateKey, rsaPrivateKey],
    [anyObject, anyKey, privateKey, ecPrivateKey]]

def setByToken : List UInt32 := [Cka.local_, Cka.alwaysSensitive, Cka.neverExtractable]

lemma allParts_sound : ∀ parts ∈ allParts, (∀ p ∈ parts, p.Proper) ∧
    (parts.flatMap (·.boolprops) ++ setByToken).Nodup := by
  have hall : allParts.all (fun parts => parts.all (fun p => p.others.all (· ∉ Keys.boolprops)) &&
      decide (parts.flatMap (·.boolprops) ++ setByToken).Nodup) = true := by decide +kernel
  intro parts hmem
  obtain ⟨hproper, hnodup⟩ := Bool.and_eq_true_iff.mp (all_eq_true.mp hall parts hmem)
  exact ⟨all_eq_true.mp hproper, of_decide_eq_true hnodup⟩

variable {parts : List Parts}

lemma partsOf_mem {c t : List UInt8} (hp : partsOf c t = some parts) : parts ∈ allParts := by
  unfold partsOf at hp
  split_ifs at hp <;> obtain rfl := Option.some.inj hp <;> simp [allParts]

lemma parts_ok {lists : List Attrs} (hl : parts.mapM (·.attrs temp) = .ok lists) (hp : ∀ p ∈ parts, p.Proper)
    (ht : Clean temp) :
    Clean lists.flatten ∧ ∀ b ∈ boolprops, (lists.flatten.map Prod.fst).count b ≤ (parts.flatMap (·.boolprops)).count b := by
  induction parts generalizing lists with
  | nil =>
    cases hl
    simp [Clean]
  | cons p parts ih =>
    rw [mapM_cons] at hl
    obtain ⟨l, hl1, hl⟩ := bind_ok.mp hl
    obtain ⟨ls, hl2, hl⟩ := bind_ok.mp hl
    cases hl
    rw [forall_mem_cons] at hp
    obtain ⟨hkeys, hclean⟩ := Parts.attrs_ok hl1
    obtain ⟨hrest, hcount⟩ := ih hl2 hp.2
    refine ⟨fun a ha => (mem_append.mp ha).elim (hclean hp.1 ht a) (hrest a), fun b hb => ?_⟩
    rw [flatten_cons, map_append, count_append, flatMap_cons, count_append]
    refine Nat.add_le_add ((hkeys.count_le b).trans ?_) (hcount b hb)
    rw [count_append, count_eq_zero.mpr fun h => hp.1.notMem h hb, Nat.add_zero]

lemma createClassAttributes_ok {attrs : Attrs} (ht : Clean temp) (hs : createClassAttributes temp = .ok attrs) :
    Clean attrs ∧ ∀ b ∈ boolprops, (attrs.map Prod.fst).count b + setByToken.count b ≤ 1 := by
  unfold createClassAttributes at hs
  split at hs
  · cases hs
  next parts hparts =>
    obtain ⟨lists, hlists, hs⟩ := bind_ok.mp hs
    cases hs
    obtain ⟨hproper, hnodup⟩ := allParts_sound parts (partsOf_mem hparts)
    obtain ⟨hclean, hcount⟩ := parts_ok hlists hproper ht
    have hflat : lists.headD [] ++ lists.tail.flatten = lists.flatten := by cases lists <;> rfl
    have htype : ∀ x ∈ (if getClass temp = Cko.data then [] else [(Cka.keyType, getKeyType temp)]), x.1 ∉ boolprops := by
      split_ifs
      · simp
      · simp only [mem_singleton, forall_eq]
        decide
    have hcls : Cka.classId ∉ boolprops := by decide
    refine ⟨fun a ha hid => ?_, fun b hb => ?_⟩
    · simp only [mem_cons, mem_append] at ha
      obtain rfl | (ha | ha) | ha := ha
      · exact absurd hid hcls
      · exact hclean a (hflat ▸ mem_append_left _ ha) hid
      · exact absurd hid (htype a ha)
      · exact hclean a (hflat ▸ mem_append_right _ ha) hid
    · have hlists := hcount b hb
      have hone := nodup_iff_count_le_one.mp hnodup b
      rw [← hflat, map_append, count_append] at hlists
      rw [count_append] at hone
      rw [map_cons, count_cons_of_ne (fun he : Cka.classId = b => hcls (he ▸ hb)), map_append, map_append,
        count_append, count_append]
      have hzero : List.count b (List.map Prod.fst (if getClass temp = Cko.data then []
          else [(Cka.keyType, getKeyType temp)])) = 0 := by
        rw [count_eq_zero, mem_map]
        rintro ⟨x, hx, rfl⟩
        exact htype x hx hb
      omega

lemma getBool_congr (hl : h'.lookup id = h.lookup id) : getBool h' id = getBool h id := by rw [getBool, hl, getBool]

lemma getBool_of_none (hl : h.lookup id = none) : getBool h id = false := by simp [getBool, hl]

lemma getBool_of_boolByte {b : Bool} (hl : h.lookup id = some (boolByte b)) : getBool h id = b := by
  cases b <;> simp [getBool, hl, boolByte]

lemma protection_always (hp : (protection f parent h).1 = true) :
    getBool h Cka.sensitive = true ∧ (f = .derive → getBool parent Cka.alwaysSensitive = true) := by
  cases f <;> simp_all [protection]

lemma protection_never (hp : (protection f parent h).2 = true) :
    getBool h Cka.extractable = false ∧ f ≠ .unwrap ∧ (f = .derive → getBool parent Cka.neverExtractable = true) := by
  cases f <;> simp_all [protection]

structure Born (f : Function) (parent h : Attrs) : Prop extends Tidy h where
  always : getBool h Cka.alwaysSensitive = true →
    getBool h Cka.sensitive = true ∧ (f = .derive → getBool parent Cka.alwaysSensitive = true)
  never : getBool h Cka.neverExtractable = true →
    getBool h Cka.extractable = false ∧ (f = .derive → getBool parent Cka.neverExtractable = true)

lemma lookup_append_new (hnone : h.lookup id = none) : (h ++ [(id, v)]).lookup id = some v := by
  rw [lookup_append, hnone]
  simp

lemma bool_or (b : Bool) : boolByte b = [0] ∨ boolByte b = [1] := by cases b <;> simp [boolByte]

lemma Tidy.setProtection {b c : Bool} (hh : Tidy h) (halways : h.lookup Cka.alwaysSensitive = none)
    (hnever : h.lookup Cka.neverExtractable = none) (v : List UInt8)
    (hh' : h' = h ++ [(Cka.alwaysSensitive, boolByte b)] ++ [(Cka.neverExtractable, boolByte c)] ++
      [(Cka.keyGenMechanism, v)]) :
    Tidy h' ∧ getBool h' Cka.alwaysSensitive = b ∧ getBool h' Cka.neverExtractable = c ∧
      getBool h' Cka.sensitive = getBool h Cka.sensitive ∧ getBool h' Cka.extractable = getBool h Cka.extractable := by
  subst hh'
  have hnever' : (h ++ [(Cka.alwaysSensitive, boolByte b)]).lookup Cka.neverExtractable = none :=
    (lookup_append_other (by decide)).trans hnever
  refine ⟨((hh.append_bool halways (bool_or b)).append_bool hnever' (bool_or c)).append_other (by decide) v,
    getBool_of_boolByte ?_, getBool_of_boolByte ?_, getBool_congr ?_, getBool_congr ?_⟩
  · simp (disch := decide) only [lookup_append_other, lookup_append_new halways]
  · simp (disch := decide) only [lookup_append_other, lookup_append_new hnever']
  · simp (disch := decide) only [lookup_append_other]
  · simp (disch := decide) only [lookup_append_other]

lemma born_finishAttributes {attrs : Attrs} (m : ℕ) (hclean : Clean attrs)
    (hcount : ∀ b ∈ boolprops, (attrs.map Prod.fst).count b + setByToken.count b ≤ 1) :
    Born f parent (finishAttributes f parent temp attrs m) := by
  have hfree : ∀ b ∈ setByToken, b ∈ boolprops → attrs.lookup b = none := by
    intro b hb hbool
    have hpos := count_pos_iff.mpr hb
    have hone := hcount b hbool
    exact lookup_eq_none.mpr (count_eq_zero.mp (by omega))
  have htidy : Tidy (attrs ++ [(Cka.local_, boolByte (isLocal f))]) :=
    Tidy.append_bool ⟨hclean, fun b hb => (Nat.le_add_right _ _).trans (hcount b hb)⟩ (hfree _ (by decide) (by decide)) (bool_or _)
  have halways : (attrs ++ [(Cka.local_, boolByte (isLocal f))]).lookup Cka.alwaysSensitive = none :=
    (lookup_append_other (by decide)).trans (hfree _ (by decide) (by decide))
  have hnever : (attrs ++ [(Cka.local_, boolByte (isLocal f))]).lookup Cka.neverExtractable = none :=
    (lookup_append_other (by decide)).trans (hfree _ (by decide) (by decide))
  unfold finishAttributes
  generalize attrs ++ [(Cka.local_, boolByte (isLocal f))] = a at htidy halways hnever
  by_cases hdata : getClass a = Cko.data
  · rw [if_pos hdata]
    exact ⟨htidy, fun h => (by rw [getBool_of_none halways] at h; cases h),
      fun h => (by rw [getBool_of_none hnever] at h; cases h)⟩
  rw [if_neg hdata]
  by_cases hunwrap : f = .unwrap ∧ temp.lookup Cka.extractable = none
  · rw [if_pos hunwrap]
    have halways' : (setAttribute a Cka.extractable [1]).lookup Cka.alwaysSensitive = none :=
      (lookup_setAttribute_other (by decide)).trans halways
    have hnever' : (setAttribute a Cka.extractable [1]).lookup Cka.neverExtractable = none :=
      (lookup_setAttribute_other (by decide)).trans hnever
    obtain ⟨ht, ha, hn, hs, -⟩ := (htidy.setAttribute fun _ => .inr rfl).setProtection halways' hnever' _ rfl
    refine ⟨ht, fun h => ?_, fun h => absurd hunwrap.1 (protection_never (hn ▸ h)).2.1⟩
    rw [hs, getBool_congr (lookup_setAttribute_other (by decide))]
    exact protection_always (ha ▸ h)
  · rw [if_neg hunwrap]
    obtain ⟨ht, ha, hn, hs, he⟩ := htidy.setProtection halways hnever _ rfl
    refine ⟨ht, fun h => ?_, fun h => ?_⟩
    · rw [hs]
      exact protection_always (ha ▸ h)
    · rw [he]
      exact (protection_never (hn ▸ h)).imp_right And.right

lemma born_created {fmt : Format} {template : Attrs} {hint : Option Hint}
    (hs : createAttributesFromTemplate fmt template parent f hint = .ok h) : Born f parent h := by
  obtain ⟨t1, h1, hs⟩ := bind_ok.mp hs
  obtain ⟨t2, h2, hs⟩ := bind_ok.mp hs
  have htidy := (tidy_sanitizeClientObject h1).addParentTemplate h2
  split_ifs at hs
  obtain ⟨t3, h3, hs⟩ := bind_ok.mp hs
  obtain ⟨attrs, h4, hs⟩ := bind_ok.mp hs
  obtain ⟨hclean, hcount⟩ := createClassAttributes_ok (htidy.sanitizeSymmKeyAttributes h3).clean h4
  split_ifs at hs
  cases hs
  exact born_finishAttributes _ hclean hcount

end Create

structure Follows (h h' : Attrs) : Prop where
  lookup : ∀ b ∈ boolprops, h'.lookup b = h.lookup b
  tidy : Tidy h → Tidy h'

namespace Follows

lemma refl (h : Attrs) : Follows h h := ⟨fun _ _ => rfl, fun ht => ht⟩

lemma trans {h'' : Attrs} (h1 : Follows h h') (h2 : Follows h' h'') : Follows h h'' :=
  ⟨fun b hb => (h2.lookup b hb).trans (h1.lookup b hb), fun ht => h2.tidy (h1.tidy ht)⟩

lemma append (h : Attrs) (hid : id ∉ boolprops) (v : List UInt8) : Follows h (h ++ [(id, v)]) :=
  ⟨fun _ hb => lookup_append_other fun he => hid (he ▸ hb), fun ht => ht.append_other hid v⟩

lemma eraseP (h : Attrs) (hid : id ∉ boolprops) : Follows h (h.eraseP (·.1 = id)) :=
  ⟨fun _ hb => lookup_eraseP fun he => hid (he ▸ hb), fun ht => ht.eraseP⟩

lemma setAttribute (h : Attrs) (hid : id ∉ boolprops) (v : List UInt8) : Follows h (setAttribute h id v) :=
  (eraseP h hid).trans (append _ hid v)

lemma removeEmptyAttribute (hid : id ∉ boolprops) (hs : removeEmptyAttribute h id = .ok h') : Follows h h' := by
  unfold Keys.removeEmptyAttribute at hs
  split at hs
  · cases hs
  · split_ifs at hs
    cases hs
    exact eraseP h hid

lemma replaceEmptyValue (hs : replaceEmptyValue h v = .ok h') : Follows h h' := by
  have hid : Cka.value ∉ boolprops := by decide
  unfold Keys.replaceEmptyValue at hs
  split at hs
  · next hr =>
    cases hs
    exact (removeEmptyAttribute hid hr).trans (append _ hid v)
  · cases hs
    exact append h hid v
  · cases hs

lemma setKeyData (hs : setKeyData h v = .ok h') : Follows h h' := by
  unfold Keys.setKeyData at hs
  dsimp only at hs
  split_ifs at hs
  · exact (setAttribute h (by decide) _).trans (replaceEmptyValue hs)
  · exact replaceEmptyValue hs

lemma shareId (pub priv : Attrs) : Follows pub (shareId pub priv).1 ∧ Follows priv (shareId pub priv).2 := by
  unfold Keys.shareId
  split
  · exact ⟨refl _, refl _⟩
  · exact ⟨refl _, refl _⟩
  · exact ⟨refl _, setAttribute _ (by decide) _⟩
  · exact ⟨setAttribute _ (by decide) _, refl _⟩

lemma generateEcKeys {pub priv : Attrs} {env : Env} {k : Attrs × Attrs} (hs : generateEcKeys pub priv env = .ok k) :
    Follows pub k.1 ∧ Follows priv k.2 := by
  obtain ⟨p, hp, hs⟩ := bind_ok.mp hs
  obtain ⟨q, hq, hs⟩ := bind_ok.mp hs
  obtain ⟨r, hr, hs⟩ := bind_ok.mp hs
  cases hs
  exact ⟨(removeEmptyAttribute (by decide) hp).trans (append _ (by decide) _),
    ((((removeEmptyAttribute (by decide) hq).trans (removeEmptyAttribute (by decide) hr)).trans
      (append _ (by decide) _)).trans (append _ (by decide) _)).trans (append _ (by decide) _)⟩

lemma getBool (hf : Follows h h') (hid : id ∈ boolprops) : getBool h' id = getBool h id := getBool_congr (hf.lookup id hid)

end Follows

lemma Born.follows (hb : Born f parent h) (hf : Follows h h') : Born f parent h' := by
  refine ⟨hf.tidy hb.toTidy, ?_, ?_⟩
  · rw [hf.getBool (by decide), hf.getBool (by decide)]
    exact hb.always
  · rw [hf.getBool (by decide), hf.getBool (by decide)]
    exact hb.never

section Change

variable {s : SessionState} {f : Function}

lemma oneWay_of_modifiable (hid : id ∈ [Cka.sensitive, Cka.extractable, Cka.alwaysSensitive, Cka.neverExtractable])
    (hm : attributeIsModifiable s id h f = true) : oneWay id h = true := by
  simp only [mem_cons, not_mem_nil, or_false] at hid
  rw [attributeIsModifiable, attrIsModifiableAnyKey, attrIsModifiableSecretKey, attrIsModifiablePublicKey] at hm
  obtain rfl | rfl | rfl | rfl := hid
  all_goals
    simp (disch := decide) only [if_neg, decide_eq_false, Bool.false_or, Bool.or_false, Bool.false_and] at hm
    split_ifs at hm <;> exact hm

lemma checkAttrs_modifiable (hs : checkAttrsAgainstModification s head h f = .ok ()) :
    ∀ a ∈ head, checkModification s head h f a.1 = .ok () := by
  have hforM : ∀ l : Attrs, l.forM (fun a => checkModification s head h f a.1) = .ok () →
      ∀ a ∈ l, checkModification s head h f a.1 = .ok () := by
    intro l hl
    induction l with
    | nil => simp
    | cons a l ih =>
      obtain ⟨⟨⟩, ha, hrest⟩ := bind_ok.mp hl
      exact forall_mem_cons.mpr ⟨ha, ih hrest⟩
  exact hforM head hs

lemma modifiable_of_check (hs : checkModification s head h f id = .ok ()) : attributeIsModifiable s id h f = true := by
  unfold checkModification at hs
  split_ifs at hs <;> simp_all

structure Guards (h h' : Attrs) : Prop where
  sensitive : getBool h Cka.sensitive = true → getBool h' Cka.sensitive = true
  extractable : getBool h' Cka.extractable = true → getBool h Cka.extractable = true
  always : getBool h' Cka.alwaysSensitive = true → getBool h Cka.alwaysSensitive = true
  never : getBool h' Cka.neverExtractable = true → getBool h Cka.neverExtractable = true

lemma guards_modify {x : Attrs} (hh : Tidy h) (hx : Clean x)
    (hkey : ∀ id ∈ [Cka.sensitive, Cka.extractable, Cka.alwaysSensitive], id ∈ x.map Prod.fst → oneWay id h = true)
    (hnever : ∀ v, (Cka.neverExtractable, v) ∈ x → v = [0]) : Guards h (modifyAttributesList h x) where
  sensitive hs := by
    rw [getBool_congr (lookup_modify_other fun hmem => ?_)]
    · exact hs
    · have hway := hkey Cka.sensitive (by decide) hmem
      rw [oneWay, if_neg (by decide), hs] at hway
      simp at hway
  extractable he := by
    by_contra hne
    rw [getBool_congr (lookup_modify_other fun hmem => ?_)] at he
    · exact hne he
    · have hway := hkey Cka.extractable (by decide) hmem
      exact hne hway
  always ha := by
    rwa [getBool_congr (lookup_modify_other fun hmem => ?_)] at ha
    have hway := hkey Cka.alwaysSensitive (by decide) hmem
    rw [oneWay, if_neg (by decide), Bool.and_eq_true] at hway
    exact absurd (of_decide_eq_true hway.1) (by decide)
  never hn := by
    by_cases hmem : Cka.neverExtractable ∈ x.map Prod.fst
    · obtain ⟨v, hv, hin⟩ := hh.lookup_modify hx (by decide) hmem
      rw [getBool, hv, hnever v hin] at hn
      simp at hn
    · rwa [getBool_congr (lookup_modify_other hmem)] at hn

lemma guards_of_check {x : Attrs} (hh : Tidy h) (hhead : Tidy head)
    (hall : ∀ a ∈ head, checkModification s head h f a.1 = .ok ())
    (hx : ∀ a ∈ x, a ∈ head ∨ a = (Cka.neverExtractable, [0])) :
    Tidy (modifyAttributesList h x) ∧ Guards h (modifyAttributesList h x) := by
  have hclean : Clean x := fun a ha hb => (hx a ha).elim (fun h => hhead.clean a h hb) fun h => (by rw [h]; exact .inl rfl)
  have hway : ∀ id ∈ [Cka.sensitive, Cka.extractable, Cka.alwaysSensitive, Cka.neverExtractable], ∀ v, (id, v) ∈ head →
      oneWay id h = true := fun id hid v hv => oneWay_of_modifiable hid (modifiable_of_check (hall (id, v) hv))
  refine ⟨hh.modify hclean, guards_modify hh hclean (fun id hid hmem => ?_) fun v hv => ?_⟩
  · obtain ⟨a, ha, rfl⟩ := mem_map.mp hmem
    obtain ha | rfl := hx a ha
    · exact hway a.1 (mem_append_left [Cka.neverExtractable] hid) a.2 ha
    · exact absurd hid (by decide)
  · obtain hv | hv := hx _ hv
    · have hnever := hway _ (by decide) v hv
      rw [oneWay, if_neg (by decide), Bool.and_eq_true] at hnever
      exact absurd (of_decide_eq_true hnever.1) (by decide)
    · exact congrArg Prod.snd hv

variable {fmt : Format} {template : Attrs} {env : Env} {flag : UInt32}

lemma checkChange_ok (hs : checkChange fmt s flag f h template = .ok head) : Tidy head ∧
    checkAccessAttrsAgainstToken s h = .ok () ∧ ∀ a ∈ head, checkModification s head h f a.1 = .ok () := by
  unfold checkChange at hs
  split_ifs at hs with _ haccess
  obtain ⟨x, hx, hs⟩ := bind_ok.mp hs
  obtain ⟨⟨⟩, hcheck, hs⟩ := bind_ok.mp hs
  cases hs
  exact ⟨tidy_sanitizeClientObject hx, not_not.mp haccess, checkAttrs_modifiable hcheck⟩

lemma set_guards (hh : Tidy h) (hs : entrySetAttributeValue fmt s h template = .ok h') : Tidy h' ∧ Guards h h' := by
  obtain ⟨x, hx, hs⟩ := bind_ok.mp hs
  cases hs
  obtain ⟨hhead, -, hall⟩ := checkChange_ok hx
  exact guards_of_check hh hhead hall fun _ => .inl

lemma copyTemplate_mem (ha : a ∈ copyTemplate h head) : a ∈ head ∨ a = (Cka.neverExtractable, [0]) := by
  unfold copyTemplate at ha
  split_ifs at ha
  · exact (mem_append.mp ha).imp_right mem_singleton.mp
  · exact .inl ha

lemma copy_guards (hh : Tidy h) (hs : entryCopyObject fmt s h template env = .ok h') : Tidy h' ∧ Guards h h' := by
  obtain ⟨x, hx, hs⟩ := bind_ok.mp hs
  obtain ⟨⟨⟩, -, hs⟩ := bind_ok.mp hs
  cases hs
  obtain ⟨hhead, -, hall⟩ := checkChange_ok hx
  exact guards_of_check hh hhead hall fun _ => copyTemplate_mem

lemma isUser_of_access (hs : checkAccessAttrsAgainstToken s h = .ok ()) (hp : getBool h Cka.private_ = true) :
    s.isUser = true := by
  unfold checkAccessAttrsAgainstToken at hs
  split_ifs at hs with _ hpriv
  cases s <;> simp_all [SessionState.isUser, SessionState.isPublic, SessionState.isSo]

lemma copy_private (hh : Tidy h) (hs : entryCopyObject fmt s h template env = .ok h')
    (hp : getBool h' Cka.private_ = true) : s.isUser = true := by
  obtain ⟨x, hx, hs⟩ := bind_ok.mp hs
  obtain ⟨⟨⟩, -, hs⟩ := bind_ok.mp hs
  cases hs
  obtain ⟨hhead, haccess, hall⟩ := checkChange_ok hx
  by_cases hold : getBool h Cka.private_ = true
  · exact isUser_of_access haccess hold
  -- The copy is private because the template says so, which has been checked.
  by_cases hmem : Cka.private_ ∈ (copyTemplate h x).map Prod.fst
  · have hclean : Clean (copyTemplate h x) := fun a ha hb =>
      (copyTemplate_mem ha).elim (fun h => hhead.clean a h hb) fun h => (by rw [h]; exact .inl rfl)
    obtain ⟨v, hv, hin⟩ := hh.lookup_modify hclean (by decide) hmem
    have hin : (Cka.private_, v) ∈ x := (copyTemplate_mem hin).resolve_right fun he => by
      exact absurd (congrArg Prod.fst he) (show Cka.private_ ≠ Cka.neverExtractable by decide)
    have hnew : getBool x Cka.private_ = true := by
      rw [← hp]
      exact getBool_congr ((hhead.lookup_of_mem (by decide) hin).trans hv.symm)
    have hcheck := hall _ hin
    unfold checkModification at hcheck
    split_ifs at hcheck with _ _ hf _ hlogin _
    · cases hf
    · cases s <;> simp_all [SessionState.isUser, SessionState.isPublic, SessionState.isSo]
  · rw [getBool_congr (lookup_modify_other hmem)] at hp
    exact absurd hp hold

end Change

end Optee.Pkcs11.Keys
