import Optee.Pkcs11.GetAttributeValue
import Optee.Pkcs11.KeyHistory

/-! Runs of the commands on keys. -/

namespace Optee.Pkcs11.Keys

open Lib.Runs Option List

variable {fmt : Format} {s : SessionState} {h h' parent template : Attrs} {env : Env} {m : Mechanism} {w w' : World}
  {c : Command} {i : ℕ} {f : Function} {o : Obj} {x : SessionState × Command}

lemma born_create (hs : entryCreateObject fmt s template env = .ok h) :
    Born .importObject [] h ∧ checkAccessAttrsAgainstToken s h = .ok () := by
  obtain ⟨head, hhead, hs⟩ := bind_ok.mp hs
  obtain ⟨⟨⟩, -, hs⟩ := bind_ok.mp hs
  obtain ⟨⟨⟩, haccess, hs⟩ := bind_ok.mp hs
  obtain ⟨⟨⟩, -, hs⟩ := bind_ok.mp hs
  cases hs
  exact ⟨born_created hhead, haccess⟩

lemma born_generate (hs : entryGenerateSecret fmt s m template env = .ok h) : Born .generate [] h := by
  unfold entryGenerateSecret at hs
  split at hs
  · cases hs
  · obtain ⟨head, hhead, hs⟩ := bind_ok.mp hs
    obtain ⟨⟨⟩, -, hs⟩ := bind_ok.mp hs
    obtain ⟨⟨⟩, -, hs⟩ := bind_ok.mp hs
    exact (born_created hhead).follows (.replaceEmptyValue hs)

lemma born_pair {pub priv : Attrs} {k : Attrs × Attrs} (hs : entryGenerateKeyPair fmt s m pub priv env = .ok k) :
    ∀ x ∈ [k.1, k.2], Born .generatePair [] x ∧ (getBool x Cka.private_ = true → s.isUser = true) := by
  unfold entryGenerateKeyPair at hs
  split_ifs at hs
  obtain ⟨p, hp, hs⟩ := bind_ok.mp hs
  obtain ⟨q, hq, hs⟩ := bind_ok.mp hs
  obtain ⟨⟨⟩, -, hs⟩ := bind_ok.mp hs
  obtain ⟨⟨⟩, -, hs⟩ := bind_ok.mp hs
  obtain ⟨⟨⟩, hpub, hs⟩ := bind_ok.mp hs
  obtain ⟨⟨⟩, -, hs⟩ := bind_ok.mp hs
  obtain ⟨⟨⟩, hpriv, hs⟩ := bind_ok.mp hs
  obtain ⟨hid1, hid2⟩ := Follows.shareId p q
  obtain ⟨hf1, hf2⟩ := Follows.generateEcKeys hs
  simp only [mem_cons, not_mem_nil, or_false, forall_eq_or_imp, forall_eq]
  refine ⟨⟨(born_created hp).follows (hid1.trans hf1), fun h => ?_⟩,
    (born_created hq).follows (hid2.trans hf2), fun h => ?_⟩
  · exact isUser_of_access hpub ((hf1.getBool (by decide)).symm.trans h)
  · exact isUser_of_access hpriv ((hf2.getBool (by decide)).symm.trans h)

lemma born_processing {ms : List Mechanism} (hs : entryProcessingKey fmt s f ms m parent template env = .ok h) :
    checkParentAttrsAgainstProcessing m f parent env.allowed = .ok () ∧ m ∈ ms ∧ Born f parent h ∧
      (getBool h Cka.private_ = true → s.isUser = true) := by
  unfold entryProcessingKey at hs
  split_ifs at hs with hm
  obtain ⟨⟨⟩, hparent, hs⟩ := bind_ok.mp hs
  obtain ⟨⟨⟩, -, hs⟩ := bind_ok.mp hs
  obtain ⟨head, hhead, hs⟩ := bind_ok.mp hs
  obtain ⟨⟨⟩, -, hs⟩ := bind_ok.mp hs
  obtain ⟨⟨⟩, haccess, hs⟩ := bind_ok.mp hs
  obtain ⟨⟨⟩, -, hs⟩ := bind_ok.mp hs
  have hf := Follows.setKeyData hs
  exact ⟨hparent, hm, (born_created hhead).follows hf,
    fun h => isUser_of_access haccess ((hf.getBool (by decide)).symm.trans h)⟩

structure Obj.Sound (o : Obj) : Prop extends Tidy o.attrs where
  now : o.attrs ∈ o.past
  always : getBool o.attrs Cka.alwaysSensitive = true → ∀ x ∈ o.past, getBool x Cka.sensitive = true
  never : getBool o.attrs Cka.neverExtractable = true → ∀ x ∈ o.past, getBool x Cka.extractable = false

lemma Born.sound (hb : Born f parent h) (k : ℕ) : Obj.Sound ⟨h, k, [h]⟩ :=
  ⟨hb.toTidy, mem_cons_self, fun ha => forall_mem_singleton.mpr (hb.always ha).1,
    fun hn => forall_mem_singleton.mpr (hb.never hn).1⟩

lemma Born.derived (hb : Born .derive o.attrs h) (ho : o.Sound) (k : ℕ) : Obj.Sound ⟨h, k, h :: o.past⟩ :=
  ⟨hb.toTidy, mem_cons_self,
    fun ha => forall_mem_cons.mpr ⟨(hb.always ha).1, ho.always ((hb.always ha).2 rfl)⟩,
    fun hn => forall_mem_cons.mpr ⟨(hb.never hn).1, ho.never ((hb.never hn).2 rfl)⟩⟩

lemma Obj.Sound.changed (ho : o.Sound) (ht : Tidy h) (hg : Guards o.attrs h) (k : ℕ) :
    Obj.Sound ⟨h, k, h :: o.past⟩ := by
  refine ⟨ht, mem_cons_self, fun ha => ?_, fun hn => ?_⟩
  · have hold := ho.always (hg.always ha)
    exact forall_mem_cons.mpr ⟨hg.sensitive (hold _ ho.now), hold⟩
  · have hold := ho.never (hg.never hn)
    refine forall_mem_cons.mpr ⟨Bool.eq_false_iff.mpr fun he => ?_, hold⟩
    exact absurd (hg.extractable he) (Bool.eq_false_iff.mp (hold _ ho.now))

lemma attrs_ok (hs : w.attrs i = .ok h) : ∃ o, w.objs[i]? = some o ∧ o.attrs = h ∧ w.past i = o.past ∧ w.key i = o.key := by
  unfold World.attrs at hs
  cases ho : w.objs[i]? with
  | none => rw [ho] at hs; cases hs
  | some o =>
    rw [ho] at hs
    cases hs
    exact ⟨o, rfl, rfl, by rw [World.past, ho]; rfl, by rw [World.key, ho]; rfl⟩

def World.Sound (w : World) : Prop := ∀ o ∈ w.objs, o.Sound

inductive Change (s : SessionState) (c : Command) (w w' : World) : Prop
  | made (news : List Obj) (hobjs : w'.objs = w.objs ++ news) (hsound : ∀ o ∈ news, o.Sound)
      (huser : (∀ m template env, c ≠ .generate m template env) → ∀ o ∈ news, getBool o.attrs Cka.private_ = true → s.isUser = true)
      (hcopy : ∀ i template env o, c = .copy i template env → w.objs[i]? = some o → ∃ o', news = [o'] ∧ Guards o.attrs o'.attrs)
  | changed (i : ℕ) (o : Obj) (h : Attrs) (ho : w.objs[i]? = some o) (hw : w' = w.modify i h) (ht : Tidy h)
      (hg : Guards o.attrs h) (hcopy : ∀ i template env, c ≠ .copy i template env)

lemma change_of_step (hw : w.Sound) (hs : w.step fmt s c = .ok w') : Change s c w w' := by
  cases c with
  | create template env =>
    obtain ⟨h, hh, rfl⟩ := map_ok.mp hs
    obtain ⟨hb, haccess⟩ := born_create hh
    exact .made _ rfl (forall_mem_singleton.mpr (hb.sound _))
      (fun _ => forall_mem_singleton.mpr (isUser_of_access haccess)) (fun _ _ _ _ hc => (by cases hc))
  | generate m template env =>
    obtain ⟨h, hh, rfl⟩ := map_ok.mp hs
    exact .made _ rfl (forall_mem_singleton.mpr ((born_generate hh).sound _))
      (fun hc => absurd rfl (hc _ _ _)) (fun _ _ _ _ hc => (by cases hc))
  | generatePair m pub priv env =>
    obtain ⟨k, hk, rfl⟩ := map_ok.mp hs
    have hb := born_pair hk
    refine .made [⟨k.1, w.keys, [k.1]⟩, ⟨k.2, w.keys + 1, [k.2]⟩] (append_assoc _ _ _) ?_ ?_ (fun _ _ _ _ hc => (by cases hc))
    · exact forall_mem_cons.mpr ⟨(hb k.1 (by simp)).1.sound _, forall_mem_singleton.mpr ((hb k.2 (by simp)).1.sound _)⟩
    · exact fun _ => forall_mem_cons.mpr ⟨(hb k.1 (by simp)).2, forall_mem_singleton.mpr (hb k.2 (by simp)).2⟩
  | derive m i template env =>
    obtain ⟨p, hp, hs⟩ := bind_ok.mp hs
    obtain ⟨h, hh, hs⟩ := bind_ok.mp hs
    cases hs
    obtain ⟨o, ho, rfl, hpast, -⟩ := attrs_ok hp
    obtain ⟨-, -, hb, huser⟩ := born_processing hh
    rw [hpast]
    exact .made _ rfl (forall_mem_singleton.mpr (hb.derived (hw o (mem_of_getElem? ho)) _))
      (fun _ => forall_mem_singleton.mpr huser) (fun _ _ _ _ hc => (by cases hc))
  | unwrap m i template env =>
    obtain ⟨p, hp, hs⟩ := bind_ok.mp hs
    obtain ⟨h, hh, hs⟩ := bind_ok.mp hs
    cases hs
    obtain ⟨-, -, hb, huser⟩ := born_processing hh
    exact .made _ rfl (forall_mem_singleton.mpr (hb.sound _))
      (fun _ => forall_mem_singleton.mpr huser) (fun _ _ _ _ hc => (by cases hc))
  | copy i template env =>
    obtain ⟨h0, hp, hs⟩ := bind_ok.mp hs
    obtain ⟨h, hh, rfl⟩ := map_ok.mp hs
    obtain ⟨o, ho, rfl, hpast, -⟩ := attrs_ok hp
    have hold := hw o (mem_of_getElem? ho)
    obtain ⟨ht, hg⟩ := copy_guards hold.toTidy hh
    refine .made [⟨h, w.key i, h :: o.past⟩] (by rw [World.addCopy, hpast])
      (forall_mem_singleton.mpr (hold.changed ht hg _))
      (fun _ => forall_mem_singleton.mpr (copy_private hold.toTidy hh)) ?_
    intro j t e o' hc ho'
    cases hc
    obtain rfl : o = o' := mem_unique ho ho'
    exact ⟨_, rfl, hg⟩
  | setAttributes i template =>
    obtain ⟨h0, hp, hs⟩ := bind_ok.mp hs
    obtain ⟨h, hh, rfl⟩ := map_ok.mp hs
    obtain ⟨o, ho, rfl, -, -⟩ := attrs_ok hp
    obtain ⟨ht, hg⟩ := set_guards (hw o (mem_of_getElem? ho)).toTidy hh
    exact .changed i o h ho rfl ht hg (fun _ _ _ hc => (by cases hc))
  | encryptInit m i env =>
    obtain ⟨h0, hp, hs⟩ := bind_ok.mp hs
    obtain ⟨⟨⟩, -, rfl⟩ := map_ok.mp hs
    exact .made [] (append_nil _).symm (fun _ ho => (by cases ho)) (fun _ _ ho => (by cases ho))
      (fun _ _ _ _ hc => (by cases hc))

lemma Change.sound (hc : Change s c w w') (hw : w.Sound) : w'.Sound := by
  intro o' ho'
  cases hc with
  | made news hobjs hsound huser hcopy =>
    rw [hobjs] at ho'
    exact (mem_append.mp ho').elim (hw o') (hsound o')
  | changed i o h ho hw' ht hg hcopy =>
    subst hw'
    obtain ⟨j, hj⟩ := mem_iff_getElem?.mp ho'
    rw [World.modify, getElem?_modify] at hj
    obtain ⟨x, hx, rfl⟩ := map_eq_some_iff.mp hj
    split_ifs with hij
    · obtain rfl : o = x := mem_unique ho (hij ▸ hx)
      exact (hw o (mem_of_getElem? ho)).changed ht hg _
    · exact hw x (mem_of_getElem? hx)

lemma sound_next (hw : w.Sound) (x : SessionState × Command) : ∃ w', w.next fmt x = .ok w' ∧ w'.Sound := by
  refine ⟨_, rfl, ?_⟩
  cases hs : w.step fmt x.1 x.2 with
  | error e => exact hw
  | ok w' => exact (change_of_step hw hs).sound hw

lemma sound_of_next (hw : w.Sound) (hx : w.next fmt x = .ok w') : w'.Sound := by
  obtain ⟨w'', hx', hw''⟩ := sound_next hw x
  cases hx.symm.trans hx'
  exact hw''

lemma Change.keeps (hc : Change s c w w') (ho : w.objs[i]? = some o) :
    ∃ o', w'.objs[i]? = some o' ∧ Guards o.attrs o'.attrs := by
  cases hc with
  | made news hobjs hsound huser hcopy =>
    rw [hobjs, List.getElem?_append_left (List.getElem?_eq_some_iff.mp ho).1]
    exact ⟨o, ho, id, id, id, id⟩
  | changed j o1 h ho1 hw' ht hg hcopy =>
    subst hw'
    rw [World.modify, getElem?_modify, ho]
    refine ⟨_, rfl, ?_⟩
    split_ifs with hij
    · obtain rfl : o1 = o := mem_unique ho1 (hij ▸ ho)
      exact hg
    · exact ⟨id, id, id, id⟩

lemma Change.copies (hc : Change s (.copy i template env) w w') (ho : w.objs[i]? = some o) :
    ∃ o', w'.objs[w.objs.length]? = some o' ∧ Guards o.attrs o'.attrs := by
  cases hc with
  | made news hobjs hsound huser hcopy =>
    obtain ⟨o', rfl, hg⟩ := hcopy i template env o rfl ho
    exact ⟨o', by rw [hobjs, getElem?_concat_length], hg⟩
  | changed j o1 h ho1 hw' ht hg hcopy => exact absurd rfl (hcopy i template env)

lemma exportable_of_tidy (ht : Tidy h) (hclass : getClass h ∈ [Cko.secretKey, Cko.privateKey]) {id : UInt32}
    (hid : id ∈ valueAttributes) (he : attributeIsExportable id h = true) :
    getBool h Cka.sensitive = false ∧ getBool h Cka.extractable = true := by
  unfold attributeIsExportable at he
  rw [if_neg, if_pos hid, Bool.and_eq_true] at he
  swap
  · simp only [mem_cons, not_mem_nil, or_false] at hclass
    tauto
  obtain ⟨hext, hsens⟩ := he
  obtain ⟨v, hv, hext⟩ := (any_eq_true _ _).mp hext
  obtain ⟨u, hu, hsens⟩ := (any_eq_true _ _).mp hsens
  obtain rfl | rfl : v = [0] ∨ v = [1] := ht.clean _ (mem_of_lookup hv) (show Cka.extractable ∈ boolprops by decide)
  · exact absurd hext (by decide)
  obtain rfl | rfl : u = [0] ∨ u = [1] := ht.clean _ (mem_of_lookup hu) (show Cka.sensitive ∈ boolprops by decide)
  · exact ⟨by simp [getBool, hu], by simp [getBool, hv]⟩
  · exact absurd hsens (by decide)

/-- A command weakens no object and makes no copy that is less protected than the original. -/
def Protects (fmt : Format) (w : World) (x : SessionState × Command) : Prop :=
  ∀ w', w.step fmt x.1 x.2 = .ok w' →
    (∀ (i : ℕ) o, w.objs[i]? = some o → ∃ o', w'.objs[i]? = some o' ∧ Guards o.attrs o'.attrs) ∧
    ∀ i template env o, x.2 = .copy i template env → w.objs[i]? = some o →
      ∃ o', w'.objs[w.objs.length]? = some o' ∧ Guards o.attrs o'.attrs

def made (fmt : Format) (w : World) (x : SessionState × Command) : List Obj :=
  ((w.step fmt x.1 x.2).toOption.getD w).objs.drop w.objs.length

lemma made_generate (w : World) (hs : entryGenerateSecret fmt s m template env = .ok h) :
    made fmt w (s, .generate m template env) = [⟨h, w.keys, [h]⟩] := by
  have hstep : w.step fmt s (.generate m template env) = .ok (w.add h []) := by rw [World.step, hs]; rfl
  rw [made, hstep]
  exact drop_left

def plainFormat : Format := ⟨fun _ => .error .attributeValueInvalid, fun _ => [], fun _ _ ha => (by cases ha)⟩

lemma parent_ok {allowed : Bool} (hs : checkParentAttrsAgainstProcessing m f h allowed = .ok ()) :
    getBool h f.attr = true ∧ checkKeyFamily m f h = .ok () := by
  unfold checkParentAttrsAgainstProcessing at hs
  by_cases hf : getBool h f.attr = true
  · rw [hf] at hs
    obtain ⟨⟨⟩, hfamily, -⟩ := bind_ok.mp hs
    exact ⟨hf, hfamily⟩
  · rw [Bool.eq_false_iff.mpr hf] at hs
    cases hs

lemma encrypt_of_derive (hs : entryDeriveKey fmt s m parent template env = .ok h) : getBool parent Cka.encrypt = false := by
  obtain ⟨hparent, hm, -, -⟩ := born_processing hs
  obtain ⟨-, hfamily⟩ := parent_ok hparent
  simp only [mem_cons, not_mem_nil, or_false] at hm
  obtain rfl | rfl := hm <;>
  · dsimp only [checkKeyFamily] at hfamily
    split_ifs at hfamily with _ henc
    exact Bool.eq_false_iff.mpr henc

lemma encrypt_of_encryptInit (hs : entryEncryptInit s m h env = .ok ()) : getBool h Cka.encrypt = true := by
  unfold entryEncryptInit at hs
  split_ifs at hs
  obtain ⟨⟨⟩, hkey, -⟩ := bind_ok.mp hs
  exact (parent_ok hkey).1

/-- A copy and a change of an object leave `CKA_ENCRYPT` as it was. -/
def KeepsEncrypt (fmt : Format) (w : World) (x : SessionState × Command) : Prop :=
  match x.2 with
  | .copy i template env => ∀ h h', w.attrs i = .ok h → entryCopyObject fmt x.1 h template env = .ok h' →
    getBool h' Cka.encrypt = getBool h Cka.encrypt
  | .setAttributes i template => ∀ h h', w.attrs i = .ok h → entrySetAttributeValue fmt x.1 h template = .ok h' →
    getBool h' Cka.encrypt = getBool h Cka.encrypt
  | _ => True

structure Apart (enc : ℕ → Bool) (w : World) : Prop where
  objs : ∀ o ∈ w.objs, o.key < w.keys ∧ getBool o.attrs Cka.encrypt = enc o.key
  derived : ∀ k ∈ w.derived, k < w.keys ∧ enc k = false
  encrypted : ∀ k ∈ w.encrypted, k < w.keys ∧ enc k = true

namespace Apart

variable {enc : ℕ → Bool}

lemma add (hw : Apart enc w) (h : Attrs) (past : List Attrs) :
    Apart (Function.update enc w.keys (getBool h Cka.encrypt)) (w.add h past) := by
  have hold : ∀ k < w.keys, ∀ b, Function.update enc w.keys b k = enc k := fun k hk b =>
    Function.update_of_ne (Nat.ne_of_lt hk) b enc
  refine ⟨fun o ho => ?_, fun k hk => ?_, fun k hk => ?_⟩
  · obtain ho | ho := mem_append.mp ho
    · obtain ⟨hlt, henc⟩ := hw.objs o ho
      exact ⟨Nat.lt_succ_of_lt hlt, by rw [hold _ hlt, henc]⟩
    · obtain rfl := mem_singleton.mp ho
      exact ⟨Nat.lt_succ_self _, (Function.update_self w.keys (getBool h Cka.encrypt) enc).symm⟩
  · obtain ⟨hlt, henc⟩ := hw.derived k hk
    exact ⟨Nat.lt_succ_of_lt hlt, by rw [hold _ hlt, henc]⟩
  · obtain ⟨hlt, henc⟩ := hw.encrypted k hk
    exact ⟨Nat.lt_succ_of_lt hlt, by rw [hold _ hlt, henc]⟩

lemma attrs (hw : Apart enc w) (hs : w.attrs i = .ok h) : w.key i < w.keys ∧ getBool h Cka.encrypt = enc (w.key i) := by
  obtain ⟨o, ho, rfl, -, hkey⟩ := attrs_ok hs
  rw [hkey]
  exact hw.objs o (mem_of_getElem? ho)

lemma step (hw : Apart enc w) (hk : KeepsEncrypt fmt w x) (hs : w.step fmt x.1 x.2 = .ok w') :
    ∃ enc', Apart enc' w' := by
  obtain ⟨s, c⟩ := x
  cases c with
  | create template env | generate m template env =>
    obtain ⟨h, -, rfl⟩ := map_ok.mp hs
    exact ⟨_, hw.add h []⟩
  | generatePair m pub priv env =>
    obtain ⟨h, -, rfl⟩ := map_ok.mp hs
    exact ⟨_, (hw.add h.1 []).add h.2 []⟩
  | derive m i template env =>
    obtain ⟨p, hp, hs⟩ := bind_ok.mp hs
    obtain ⟨h, hh, hs⟩ := bind_ok.mp hs
    cases hs
    obtain ⟨hlt, henc⟩ := hw.attrs hp
    have hadd := hw.add h (w.past i)
    refine ⟨_, hadd.objs, forall_mem_cons.mpr ⟨⟨Nat.lt_succ_of_lt hlt, ?_⟩, hadd.derived⟩, hadd.encrypted⟩
    rw [Function.update_of_ne (Nat.ne_of_lt hlt), ← henc, encrypt_of_derive hh]
  | unwrap m i template env =>
    obtain ⟨p, -, hs⟩ := bind_ok.mp hs
    obtain ⟨h, -, hs⟩ := bind_ok.mp hs
    cases hs
    exact ⟨_, hw.add h []⟩
  | copy i template env =>
    obtain ⟨h0, hp, hs⟩ := bind_ok.mp hs
    obtain ⟨h, hh, rfl⟩ := map_ok.mp hs
    obtain ⟨hlt, henc⟩ := hw.attrs hp
    refine ⟨enc, fun o ho => ?_, hw.derived, hw.encrypted⟩
    obtain ho | ho := mem_append.mp ho
    · exact hw.objs o ho
    · obtain rfl := mem_singleton.mp ho
      exact ⟨hlt, (hk h0 h hp hh).trans henc⟩
  | setAttributes i template =>
    obtain ⟨h0, hp, hs⟩ := bind_ok.mp hs
    obtain ⟨h, hh, rfl⟩ := map_ok.mp hs
    obtain ⟨o0, ho0, rfl, -, hkey⟩ := attrs_ok hp
    refine ⟨enc, fun o ho => ?_, hw.derived, hw.encrypted⟩
    obtain ⟨j, hj⟩ := mem_iff_getElem?.mp ho
    rw [World.modify, getElem?_modify] at hj
    obtain ⟨x, hx, rfl⟩ := map_eq_some_iff.mp hj
    have hold := hw.objs x (mem_of_getElem? hx)
    split_ifs with hij
    · obtain rfl : o0 = x := mem_unique ho0 (hij ▸ hx)
      exact ⟨hold.1, (hk _ h hp hh).trans hold.2⟩
    · exact hold
  | encryptInit m i env =>
    obtain ⟨h, hp, hs⟩ := bind_ok.mp hs
    obtain ⟨⟨⟩, hh, rfl⟩ := map_ok.mp hs
    obtain ⟨hlt, henc⟩ := hw.attrs hp
    exact ⟨enc, hw.objs, hw.derived, forall_mem_cons.mpr ⟨⟨hlt, henc ▸ encrypt_of_encryptInit hh⟩, hw.encrypted⟩⟩

lemma next (hw : Apart enc w) (hk : KeepsEncrypt fmt w x) : ∃ w', w.next fmt x = .ok w' ∧ ∃ enc', Apart enc' w' := by
  refine ⟨_, rfl, ?_⟩
  cases hs : w.step fmt x.1 x.2 with
  | error e => exact ⟨enc, hw⟩
  | ok w' => exact hw.step hk hs

end Apart

def anyEnv : Env := ⟨.ok (), List.replicate 16 0, [], true⟩

def generateAndDerive : List (SessionState × Command) :=
  [(.roPublic, .generate .aesKeyGen [(Cka.derive, [1]), (Cka.valueLen, ckId 16)] anyEnv),
    (.roPublic, .derive .aesEcbEncryptData 0 [(Cka.classId, Cko.secretKey), (Cka.keyType, Ckk.aes)] anyEnv)]

/-- The attributes that `C_SetAttributeValue` may change, of some object at least. -/
def changeable : List UInt32 :=
  [Cka.label, Cka.copyable, Cka.id, Cka.startDate, Cka.endDate, Cka.derive, Cka.encrypt, Cka.decrypt, Cka.sign, Cka.verify,
    Cka.wrap, Cka.unwrap, Cka.extractable, Cka.sensitive, Cka.wrapWithTrusted, Cka.trusted, Cka.subject, Cka.verifyRecover,
    Cka.signRecover, Cka.publicKeyInfo]

/-- The later state of an object: its key is the same, and nothing else of it is changed but what may be. -/
structure Kept (o o' : Obj) : Prop where
  key : o'.key = o.key
  fixed : ∀ id ∉ changeable, o'.attrs.lookup id = o.attrs.lookup id
  whole : getBool o.attrs Cka.modifiable = false → o'.attrs = o.attrs

lemma Kept.refl (o : Obj) : Kept o o := ⟨rfl, fun _ _ => rfl, fun _ => rfl⟩

lemma Kept.trans {o' o'' : Obj} (h : Kept o o') (h' : Kept o' o'') : Kept o o'' where
  key := h'.key.trans h.key
  fixed id hid := (h'.fixed id hid).trans (h.fixed id hid)
  whole hm := (h'.whole (by rw [h.whole hm, hm])).trans (h.whole hm)

lemma changeable_of_modifiable {id : UInt32} (hm : attributeIsModifiable s id h .modify = true) : id ∈ changeable := by
  simp only [attributeIsModifiable, attrIsModifiableAnyKey, attrIsModifiableSecretKey, attrIsModifiablePublicKey,
    attrIsModifiablePrivateKey, oneWay, mem_cons, not_mem_nil, or_false] at hm
  simp only [changeable, mem_cons, not_mem_nil, or_false]
  grind

lemma kept_of_set (hs : entrySetAttributeValue fmt s o.attrs template = .ok h) (past : List Attrs) :
    Kept o { o with attrs := h, past := past } := by
  obtain ⟨head, hhead, hs⟩ := bind_ok.mp hs
  cases hs
  refine ⟨rfl, fun id hid => ?_, fun hm => ?_⟩
  · refine lookup_modify_other fun hmem => hid ?_
    obtain ⟨a, ha, rfl⟩ := mem_map.mp hmem
    exact changeable_of_modifiable (modifiable_of_check ((checkChange_ok hhead).2.2 a ha))
  · unfold checkChange at hhead
    split_ifs at hhead with _ _ hflag
    exact absurd hm (by simpa using hflag)

lemma kept_of_step (hs : w.step fmt s c = .ok w') (ho : w.objs[i]? = some o) : ∃ o', w'.objs[i]? = some o' ∧ Kept o o' := by
  have hlt := (List.getElem?_eq_some_iff.mp ho).1
  have hadd : ∀ news, (w.objs ++ news)[i]? = some o := fun news => (getElem?_append_left hlt).trans ho
  cases c with
  | create | generate =>
    obtain ⟨h, -, rfl⟩ := map_ok.mp hs
    exact ⟨o, hadd _, .refl o⟩
  | generatePair =>
    obtain ⟨k, -, rfl⟩ := map_ok.mp hs
    exact ⟨o, (congrArg (·[i]?) (append_assoc ..)).trans (hadd _), .refl o⟩
  | derive | unwrap =>
    obtain ⟨p, -, hs⟩ := bind_ok.mp hs
    obtain ⟨h, -, hs⟩ := bind_ok.mp hs
    cases hs
    exact ⟨o, hadd _, .refl o⟩
  | copy =>
    obtain ⟨p, -, hs⟩ := bind_ok.mp hs
    obtain ⟨h, -, rfl⟩ := map_ok.mp hs
    exact ⟨o, hadd _, .refl o⟩
  | encryptInit =>
    obtain ⟨p, -, hs⟩ := bind_ok.mp hs
    obtain ⟨-, -, rfl⟩ := map_ok.mp hs
    exact ⟨o, ho, .refl o⟩
  | setAttributes j template =>
    obtain ⟨p, hp, hs⟩ := bind_ok.mp hs
    obtain ⟨h, hh, rfl⟩ := map_ok.mp hs
    obtain ⟨o', ho', rfl, -, -⟩ := attrs_ok hp
    rw [World.modify, getElem?_modify, ho]
    by_cases hj : j = i
    · subst hj
      obtain rfl : o = o' := mem_unique ho ho'
      exact ⟨{ o with attrs := h, past := h :: o.past }, by simp, kept_of_set hh _⟩
    · exact ⟨o, by simp [hj], .refl o⟩

end Optee.Pkcs11.Keys
