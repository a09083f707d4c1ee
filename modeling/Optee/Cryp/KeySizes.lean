import Mathlib.Data.List.Nodup
import Optee.Cryp.Objects
import Optee.Lib.Runs

/-! When an initialised object has a key size that is legal for its type. -/

namespace Optee.Cryp

open Lib.Runs List

def Content.size : Content → Option ℕ
  | .data bits => some bits
  | .value curve => (getEcKeySize curve).toOption

variable {cfg : Config} {env : Env} {props : TypeProps} {o o' : Obj} {attrs : List Attribute} {usage : Usage}

structure Legal (cfg : Config) (props : TypeProps) (o : Obj) : Prop where
  size : checkKeySize cfg o.objectType props o.keySize = .ok ()
  max : o.keySize ≤ o.maxKeySize
  defined : ∀ ta ∈ props.typeAttrs, .sizeIndicator ∈ ta.flags →
    (o.attrs ta.id).size = some (withParity cfg o.objectType o.keySize)
  required : ∀ ta ∈ props.typeAttrs, .required ∈ ta.flags → ta.id ∈ o.haveAttrs

@[mk_iff] structure Regular (tas : List TypeAttr) : Prop where
  indicator : ∃ ta ∈ tas, .sizeIndicator ∈ ta.flags
  find : ∀ ta ∈ tas, tas.find? (·.id = ta.id) = some ta
  unique : ∀ ta ∈ tas, ∀ ta' ∈ tas, .sizeIndicator ∈ ta.flags → .sizeIndicator ∈ ta'.flags → ta.id = ta'.id
  required : ∀ ta ∈ tas, .sizeIndicator ∈ ta.flags → .required ∈ ta.flags
  kind : ∀ ta ∈ tas, .sizeIndicator ∈ ta.flags →
    (ta.id = .eccCurve ∧ ta.ops = .value) ∨ (ta.id.isValue = false ∧ ta.ops ≠ .value)

instance (tas : List TypeAttr) : Decidable (Regular tas) := decidable_of_iff' _ (regular_iff tas)

variable {type : ObjType}

lemma regular_of_find (h : findTypeProps cfg type = some props) : Regular props.typeAttrs := by
  cases type with
  | hkdfIkm | concatKdfZ | pbkdf2Password =>
    rw [findTypeProps] at h
    split at h
    · cases h
      decide
    · cases h
  | data => cases h
  | _ =>
    cases h
    dsimp only
    decide

lemma checkEach_spec {found found' : List AttrId} (h : checkEach usage props attrs found = .ok found')
    (hfound : found.Nodup) :
    found' = (attrs.map (·.id)).reverse ++ found ∧ found'.Nodup := by
  induction attrs generalizing found with
  | nil =>
    cases h
    exact ⟨rfl, hfound⟩
  | cons a as ih =>
    rw [checkEach] at h
    split_ifs at h
    next hnew _ =>
    obtain ⟨heq, hnodup⟩ := ih h (nodup_cons.mpr ⟨hnew, hfound⟩)
    refine ⟨?_, hnodup⟩
    simp [heq]

lemma takeAttrs_spec (h : takeAttrs env usage props attrs = .ok ()) :
    (attrs.map (·.id)).Nodup ∧ ∀ id ∈ reqAttrs usage props, id ∈ attrs.map (·.id) := by
  rw [takeAttrs] at h
  split_ifs at h
  rw [checkAttr] at h
  cases hfound : checkEach usage props attrs [] with
  | error e =>
    rw [hfound] at h
    cases h
  | ok found =>
    obtain ⟨heq, hnodup⟩ := checkEach_spec hfound nodup_nil
    rw [append_nil] at heq
    subst heq
    rw [hfound, ok_bind] at h
    refine ⟨nodup_reverse.mp hnodup, fun id hid => ?_⟩
    by_contra hmissing
    rw [if_pos ⟨id, hid, by simpa using hmissing⟩] at h
    cases h

variable {have_ : List AttrId} {size : ℕ} {c : Content}

section Populate

def Attribute.bits (a : Attribute) : Option ℕ :=
  if a.id = .eccCurve then (getEcKeySize a.value).toOption else some (a.buffer.length * 8)

variable {a : Attribute} {sz : ℕ}

lemma fromUser_size {ops : Ops} (h : fromUser env props ops a = .ok c)
    (hkind : (a.id = .eccCurve ∧ ops = .value) ∨ (a.id.isValue = false ∧ ops ≠ .value)) : c.size = a.bits := by
  rw [Attribute.bits]
  obtain ⟨hid, rfl⟩ | ⟨hid, hops⟩ := hkind
  · rw [if_pos hid]
    rw [fromUser] at h
    split at h
    · cases h
    · cases h
      rfl
  · have hne : a.id ≠ .eccCurve := by
      intro he
      rw [he] at hid
      cases hid
    have hlength : a.length = a.buffer.length := by rw [Attribute.length, hid, if_neg (by decide)]
    rw [if_neg hne]
    cases ops with
    | value => exact absurd rfl hops
    | secret | bignum =>
      rw [fromUser, hlength] at h
      split at h <;> cases h
      rw [Content.size, Nat.mul_comm]

lemma definedSize_bits (h : definedSize cfg o a = .ok size)
    (hlegacy : isGpLegacyDesKeySize cfg o.objectType o.maxKeySize = false) : a.bits = some size := by
  rw [definedSize, hlegacy] at h
  rw [Attribute.bits]
  split at h
  · next hid => rw [if_pos hid, h, Except.toOption]
  · next hid =>
    cases h
    rw [if_neg hid]
    rfl

variable {ta : TypeAttr}

structure Loaded (cfg : Config) (env : Env) (props : TypeProps) (attrs : List Attribute) (o o' : Obj) (sz sz' : ℕ) :
    Prop where
  type : o'.objectType = o.objectType
  max : o'.maxKeySize = o.maxKeySize
  other : ∀ id ∉ attrs.map (·.id), o'.attrs id = o.attrs id
  content : ∀ a ∈ attrs, ∃ ta, props.find a.id = some ta ∧ fromUser env props ta.ops a = .ok (o'.attrs a.id)
  size : ∀ a ∈ attrs, ∀ ta, props.find a.id = some ta → .sizeIndicator ∈ ta.flags →
    sz' ≤ o.maxKeySize ∧ definedSize cfg o a = .ok sz'
  keep : (∀ a ∈ attrs, ∀ ta, props.find a.id = some ta → .sizeIndicator ∉ ta.flags) → sz' = sz

lemma setAttr_self (o : Obj) (id : AttrId) (c : Content) : (o.setAttr id c).attrs id = c := Function.update_self ..

lemma setAttr_of_ne {id id' : AttrId} (h : id' ≠ id) : (o.setAttr id c).attrs id' = o.attrs id' :=
  Function.update_of_ne h ..

lemma mem_of_find {id : AttrId} (h : props.find id = some ta) : ta ∈ props.typeAttrs ∧ ta.id = id :=
  ⟨mem_of_find?_eq_some h, by simpa using find?_some h⟩

lemma populateLoop_spec (hreg : Regular props.typeAttrs) {sz' : ℕ} {have' : List AttrId}
    (hnodup : (attrs.map (·.id)).Nodup) (h : populateLoop cfg env props o attrs sz have_ = (o', .ok (sz', have'))) :
    have' = (attrs.map (·.id)).reverse ++ have_ ∧ Loaded cfg env props attrs o o' sz sz' := by
  induction attrs generalizing o sz have_ with
  | nil =>
    cases h
    exact ⟨rfl, rfl, rfl, fun _ _ => rfl, nofun, nofun, fun _ => rfl⟩
  | cons a as ih =>
    obtain ⟨ha, has⟩ := nodup_cons.mp hnodup
    rw [populateLoop] at h
    split at h
    · cases h
    next ta hta =>
    split at h
    · cases h
    next c hc =>
    split at h
    · cases h
    next size hsz =>
    split at h
    · cases h
    obtain ⟨hhave, hl⟩ := ih has h
    refine ⟨by simp [hhave], hl.type, hl.max, fun id hid => ?_, fun b hb => ?_, fun b hb tb htb hind => ?_, fun hnone => ?_⟩
    · obtain ⟨hne, hid⟩ := not_or.mp (mem_cons.not.mp hid)
      rw [hl.other id hid, setAttr_of_ne hne]
    · obtain rfl | hb := mem_cons.mp hb
      · refine ⟨ta, hta, ?_⟩
        rw [hl.other b.id ha, hc, setAttr_self]
      · exact hl.content b hb
    · obtain rfl | hb := mem_cons.mp hb
      · cases hta.symm.trans htb
        -- the indicator is the only one, so that what follows keeps its size
        have hkeep : sz' = size := hl.keep fun b' hb' tb' htb' hind' => by
          obtain ⟨hmem, hid⟩ := mem_of_find hta
          obtain ⟨hmem', hid'⟩ := mem_of_find htb'
          refine ha (mem_map.mpr ⟨b', hb', ?_⟩)
          exact hid'.symm.trans ((hreg.unique tb' hmem' ta hmem hind' hind).trans hid)
        rw [hkeep]
        rw [sizeAfter, if_neg (not_not.mpr hind)] at hsz
        split at hsz
        · cases hsz
        split at hsz
        · cases hsz
        next n hn =>
        split at hsz
        · cases hsz
        · cases hsz
          exact ⟨by omega, hn⟩
      · exact hl.size b hb tb htb hind
    · rw [hl.keep fun b hb => hnone b (mem_cons_of_mem a hb)]
      rw [sizeAfter, if_pos (hnone a mem_cons_self ta hta)] at hsz
      exact (Except.ok.inj hsz).symm

lemma populateType_spec (hreg : Regular props.typeAttrs) (hnodup : (attrs.map (·.id)).Nodup)
    (h : populateType cfg env props o attrs = (o', .ok ())) :
    (∀ id ∈ attrs.map (·.id), id ∈ o'.haveAttrs) ∧
      ∃ sz, Loaded cfg env props attrs o o' 0 sz ∧
        (isGpLegacyDesKeySize cfg o.objectType o.maxKeySize = false → o'.keySize = sz) := by
  rw [populateType] at h
  split at h
  · cases h
  next o1 sz have_ hloop =>
  cases h
  obtain ⟨hhave, hl⟩ := populateLoop_spec hreg hnodup hloop
  refine ⟨fun id hid => ?_, sz, ⟨hl.type, hl.max, hl.other, hl.content, hl.size, hl.keep⟩, fun hlegacy => ?_⟩
  · rw [hhave, append_nil, mem_reverse]
    exact hid
  · rw [hl.type, hl.max, hlegacy]
    rfl

lemma mem_reqAttrs (hta : ta ∈ props.typeAttrs) (hflag : usage.requiredFlag ∈ ta.flags) :
    ta.id ∈ reqAttrs usage props :=
  mem_map_of_mem (mem_filter.mpr ⟨hta, by simpa using hflag⟩)

lemma Loaded.indicator (hreg : Regular props.typeAttrs) (hl : Loaded cfg env props attrs o o' 0 sz)
    (hta : ta ∈ props.typeAttrs) (hind : .sizeIndicator ∈ ta.flags) (hgiven : ta.id ∈ attrs.map (·.id)) :
    ∃ a ∈ attrs, props.find a.id = some ta ∧ sz ≤ o.maxKeySize ∧ definedSize cfg o a = .ok sz ∧
      (o'.attrs ta.id).size = a.bits := by
  obtain ⟨a, ha, hid⟩ := mem_map.mp hgiven
  have hfind : props.find a.id = some ta := by
    rw [hid]
    exact hreg.find ta hta
  obtain ⟨ta', hfind', hcontent⟩ := hl.content a ha
  cases hfind.symm.trans hfind'
  obtain ⟨hle, hsz⟩ := hl.size a ha ta hfind hind
  refine ⟨a, ha, hfind, hle, hsz, ?_⟩
  rw [← hid]
  exact fromUser_size hcontent (hid ▸ hreg.kind ta hta hind)

end Populate

def Fine (cfg : Config) (o : Obj) : Prop :=
  o.initialized = true → ∃ props, findTypeProps cfg o.objectType = some props ∧ Legal cfg props o

lemma fine_of_not_initialized (h : o.initialized = false) : Fine cfg o := by
  intro hinit
  rw [h] at hinit
  cases hinit

def MayPopulate (cfg : Config) (o : Obj) (attrs : List Attribute) : Prop :=
  isGpLegacyDesKeySize cfg o.objectType o.maxKeySize = false ∧
    ∀ props ∈ findTypeProps cfg o.objectType, ∀ a ∈ attrs, ∀ ta ∈ props.find a.id, .sizeIndicator ∈ ta.flags →
      ∀ size ∈ a.bits,
        checkKeySize cfg o.objectType props size = .ok () ∧ isGpLegacyDesKeySize cfg o.objectType size = false

/-- The key size is within the maximum and, if the attribute that defines it is given, is its size. -/
def MayGenerate (cfg : Config) (o : Obj) (keySize : ℕ) (params : List Attribute) : Prop :=
  keySize ≤ o.maxKeySize ∧
    ∀ props ∈ findTypeProps cfg o.objectType, ∀ a ∈ params, ∀ ta ∈ props.find a.id, .sizeIndicator ∈ ta.flags →
      a.bits = some keySize

def MayCopy (dst src : Obj) : Prop := dst.objectType ≠ .data ∧ src.keySize ≤ dst.maxKeySize

section Calls

lemma objPopulate_fine (h : Fine cfg o) (hmay : MayPopulate cfg o attrs) :
    Fine cfg (objPopulate cfg env o attrs).1 := by
  rw [objPopulate]
  split
  · exact h
  split
  · exact h
  next hinit =>
  split
  · exact h
  next props hprops =>
  split
  · exact h
  next htake =>
  obtain ⟨hlegacy, hsizes⟩ := hmay
  have hreg := regular_of_find hprops
  obtain ⟨hnodup, hreq⟩ := takeAttrs_spec htake
  split
  · next heq =>
    refine fine_of_not_initialized ?_
    have hkeep : (populateType cfg env props o attrs).1.initialized = o.initialized := congrArg Prod.snd populateType_head
    rw [heq] at hkeep
    exact hkeep.trans (by simpa using hinit)
  · next o' heq =>
    obtain ⟨hhave, sz, hl, hsz⟩ := populateType_spec hreg hnodup heq
    have hsz := hsz hlegacy
    have hgiven : ∀ ta ∈ props.typeAttrs, .required ∈ ta.flags → ta.id ∈ attrs.map (·.id) :=
      fun ta hta hflag => hreq ta.id (mem_reqAttrs hta hflag)
    -- the size indicator is required and hence given
    have hind : ∀ ta ∈ props.typeAttrs, .sizeIndicator ∈ ta.flags →
        sz ≤ o.maxKeySize ∧ checkKeySize cfg o.objectType props sz = .ok () ∧
          isGpLegacyDesKeySize cfg o.objectType sz = false ∧ (o'.attrs ta.id).size = some sz := by
      intro ta hta hflag
      obtain ⟨a, ha, hfind, hle, hdef, hcontent⟩ :=
        hl.indicator hreg hta hflag (hgiven ta hta (hreg.required ta hta hflag))
      have hbits := definedSize_bits hdef hlegacy
      obtain ⟨hcheck, hnot⟩ := hsizes props hprops a ha ta hfind hflag sz hbits
      exact ⟨hle, hcheck, hnot, hcontent.trans hbits⟩
    obtain ⟨ti, hti, hflag⟩ := hreg.indicator
    obtain ⟨hle, hcheck, hnot, -⟩ := hind ti hti hflag
    refine fun _ => ⟨props, hl.type ▸ hprops, ?_, ?_, fun ta hta hta' => ?_, fun ta hta hta' => ?_⟩
    · rw [hl.type, hsz]
      exact hcheck
    · rw [hsz, hl.max]
      exact hle
    · rw [hl.type, hsz, withParity, hnot]
      exact (hind ta hta hta').2.2.2
    · exact hhave ta.id (hgiven ta hta hta')

variable {src : Obj} {srcProps : TypeProps}

lemma fromObj_eq {ops : Ops} {c' : Content} (h : fromObj props ops c = .ok c') : c' = c := by
  cases ops with
  | bignum | value =>
    cases h
    rfl
  | secret =>
    cases c with
    | value a =>
      cases h
      rfl
    | data bits =>
      rw [fromObj] at h
      split at h
      · cases h
      · cases h
        rfl

lemma copyLoop_spec {tas : List TypeAttr} (h : copyLoop props srcProps src o tas = (o', .ok ())) :
    o'.objectType = o.objectType ∧ o'.maxKeySize = o.maxKeySize ∧
      (∀ ta ∈ tas, o'.attrs ta.id = src.attrs ta.id) ∧ ∀ id ∉ tas.map (·.id), o'.attrs id = o.attrs id := by
  induction tas generalizing o with
  | nil =>
    cases h
    exact ⟨rfl, rfl, nofun, fun _ _ => rfl⟩
  | cons ta tas ih =>
    rw [copyLoop] at h
    split at h
    · cases h
    split at h
    · cases h
    next c hc =>
    obtain ⟨htype, hmax, hcopied, hother⟩ := ih h
    refine ⟨htype, hmax, fun tb htb => ?_, fun id hid => ?_⟩
    · by_cases hmem : tb.id ∈ tas.map (·.id)
      · obtain ⟨tc, htc, hid⟩ := mem_map.mp hmem
        rw [← hid]
        exact hcopied tc htc
      · obtain rfl | htb := mem_cons.mp htb
        · rw [hother tb.id hmem, setAttr_self, fromObj_eq hc]
        · exact absurd (mem_map_of_mem htb) hmem
    · obtain ⟨hne, hid⟩ := not_or.mp (mem_cons.not.mp hid)
      rw [hother id hid, setAttr_of_ne hne]

lemma copyAll_spec (h : copyAll props srcProps src o have_ = (o', .ok ())) :
    o'.objectType = o.objectType ∧ o'.maxKeySize = o.maxKeySize ∧ o'.haveAttrs = have_ ∧
      ∀ ta ∈ props.typeAttrs, o'.attrs ta.id = src.attrs ta.id := by
  rw [copyAll] at h
  split at h
  · cases h
  next hloop =>
  cases h
  obtain ⟨htype, hmax, hcopied, -⟩ := copyLoop_spec hloop
  exact ⟨htype, hmax, rfl, hcopied⟩

lemma keypair_tables {type srcType : ObjType} (hpair : keypairOf type = some srcType)
    (hprops : findTypeProps cfg type = some props) (hsrc : findTypeProps cfg srcType = some srcProps) (n : ℕ) :
    (checkKeySize cfg srcType srcProps n = .ok () → checkKeySize cfg type props n = .ok ()) ∧
      withParity cfg type n = withParity cfg srcType n ∧
      ∀ ta ∈ props.typeAttrs, .sizeIndicator ∈ ta.flags →
        ∃ ta' ∈ srcProps.typeAttrs, ta'.id = ta.id ∧ .sizeIndicator ∈ ta'.flags := by
  cases type <;> cases hpair <;> cases hprops <;> cases hsrc
  all_goals
    refine ⟨?_, ?_, ?_⟩
    · simp [checkKeySize, withParity, isGpLegacyDesKeySize]
    · simp [withParity, isGpLegacyDesKeySize]
    · dsimp only
      decide

lemma attrCopyFrom_spec (hdata : o.objectType ≠ .data) {p : TypeProps}
    (hsrc : findTypeProps cfg src.objectType = some p) (hlegal : Legal cfg p src) (hmax : src.keySize ≤ o.maxKeySize)
    (h : attrCopyFrom cfg o src = (o', .ok ())) :
    ∃ props, findTypeProps cfg o'.objectType = some props ∧ Legal cfg props { o' with keySize := src.keySize } := by
  rw [attrCopyFrom, if_neg hdata] at h
  split at h
  · cases h
  next props hprops =>
  split at h
  · next heq =>
    obtain ⟨htype, hmax', hhave, hattrs⟩ := copyAll_spec h
    rw [heq, hsrc] at hprops
    cases hprops
    refine ⟨p, by rw [htype, heq, hsrc], ?_, hmax'.symm ▸ hmax, fun ta hta hind => ?_, fun ta hta hreq => ?_⟩
    · rw [htype, heq]
      exact hlegal.size
    · rw [hattrs ta hta, htype, heq]
      exact hlegal.defined ta hta hind
    · rw [hhave]
      exact hlegal.required ta hta hreq
  split at h
  · cases h
  next hpair =>
  split at h
  · cases h
  next srcProps hsrcProps =>
  obtain ⟨htype, hmax', hhave, hattrs⟩ := copyAll_spec h
  obtain ⟨hsize, hparity, hind⟩ := keypair_tables (not_not.mp hpair) hprops hsrc src.keySize
  refine ⟨props, by rw [htype, hprops], ?_, hmax'.symm ▸ hmax, fun ta hta hflag => ?_, fun ta hta _ => ?_⟩
  · rw [htype]
    exact hsize hlegal.size
  · obtain ⟨ta', hta', hid, hflag'⟩ := hind ta hta hflag
    rw [hattrs ta hta, htype, hparity, ← hid]
    exact hlegal.defined ta' hta' hflag'
  · rw [hhave]
    exact mem_map_of_mem hta

lemma objCopy_fine (h : Fine cfg o) (hsrc : Fine cfg src) (hmay : MayCopy o src) : Fine cfg (objCopy cfg o src).1 := by
  rw [objCopy]
  split
  · exact h
  next hinit =>
  obtain ⟨p, hp, hlegal⟩ := hsrc (by simpa using hinit)
  split
  · exact h
  split
  · exact h
  next hnot =>
  split
  · next heq =>
    refine fine_of_not_initialized ?_
    have hkeep : (attrCopyFrom cfg o src).1.initialized = o.initialized := congrArg Prod.snd attrCopyFrom_head
    rw [heq] at hkeep
    exact hkeep.trans (by simpa using hnot)
  · next heq =>
    obtain ⟨props, hprops, hl⟩ := attrCopyFrom_spec hmay.1 hp hlegal hmay.2 heq
    exact fun _ => ⟨props, hprops, hl.size, hl.max, hl.defined, hl.required⟩

lemma random_tables (hrandom : type.isRandom = true) (hprops : findTypeProps cfg type = some props) :
    8 ∣ props.quanta ∧ props.typeAttrs = secretAttrs .secretValue := by
  cases type <;> cases hrandom <;> cases hprops
  all_goals exact ⟨by decide, rfl⟩

variable {keySize : ℕ} {params : List Attribute}

lemma byteSize_mul (hq : 8 ∣ props.quanta) (h : checkKeySize cfg type props keySize = .ok ()) :
    8 * byteSize cfg type keySize = withParity cfg type keySize := by
  have hdvd : 8 ∣ withParity cfg type keySize := by
    rw [checkKeySize] at h
    split at h
    · cases h
    next hmod =>
    exact Nat.dvd_trans hq (Nat.dvd_of_mod_eq_zero (not_not.mp hmod))
  rw [byteSize]
  rw [withParity] at hdvd ⊢
  split
  · next hlegacy =>
    rw [if_pos hlegacy] at hdvd
    exact Nat.mul_div_cancel' hdvd
  · next hlegacy =>
    rw [if_neg hlegacy] at hdvd
    exact Nat.mul_div_cancel' hdvd

structure Generated (cfg : Config) (props : TypeProps) (keySize : ℕ) (o o' : Obj) : Prop where
  type : o'.objectType = o.objectType
  max : o'.maxKeySize = o.maxKeySize
  defined : ∀ ta ∈ props.typeAttrs, .sizeIndicator ∈ ta.flags →
    (o'.attrs ta.id).size = some (withParity cfg o.objectType keySize)
  required : ∀ ta ∈ props.typeAttrs, .required ∈ ta.flags → ta.id ∈ o'.haveAttrs

lemma generateSecret_spec (hprops : findTypeProps cfg o.objectType = some props)
    (hrandom : o.objectType.isRandom = true) (hsize : checkKeySize cfg o.objectType props keySize = .ok ())
    (h : generateSecret cfg env props o keySize = (o', .ok ())) : Generated cfg props keySize o o' := by
  obtain ⟨hq, htas⟩ := random_tables hrandom hprops
  rw [generateSecret] at h
  split at h
  · cases h
  split at h
  · cases h
  cases h
  refine ⟨rfl, rfl, fun ta hta _ => ?_, fun ta hta _ => mem_map_of_mem hta⟩
  rw [htas] at hta
  obtain rfl := mem_singleton.mp hta
  exact congrArg some (byteSize_mul hq hsize)

lemma keypair_parity (hkeypair : type.isKeypair = true) (keySize : ℕ) :
    withParity cfg type keySize = keySize := by
  cases type <;> cases hkeypair <;> simp [withParity, isGpLegacyDesKeySize]

section

variable (hdef : ∀ ta ∈ props.typeAttrs, .sizeIndicator ∈ ta.flags → .genKeyReq ∈ ta.flags →
    (o.attrs ta.id).size = some keySize)
include hdef

lemma generate_spec {ids : List AttrId} (hparity : withParity cfg o.objectType keySize = keySize)
    (hkeep : ∀ ta ∈ props.typeAttrs, .sizeIndicator ∈ ta.flags → .genKeyReq ∈ ta.flags ∧ ta.id ∉ ids)
    (hhave : ∀ ta ∈ props.typeAttrs, .required ∈ ta.flags → ta.id ∈ have_) :
    Generated cfg props keySize o { o.generate env ids with haveAttrs := have_ } := by
  refine ⟨rfl, rfl, fun ta hta hind => ?_, hhave⟩
  obtain ⟨hreq, hid⟩ := hkeep ta hta hind
  show (if ta.id ∈ ids then Content.data (env.bits ta.id) else o.attrs ta.id).size = _
  rw [if_neg hid, hparity]
  exact hdef ta hta hind hreq

lemma generateEcc_spec (htas : props.typeAttrs = eccKeypairAttrs)
    (hparity : withParity cfg o.objectType keySize = keySize)
    (h : (if !env.generated then (o, Except.error Error.badParameters)
      else
        ({ o.generate env [.eccPrivateValue, .eccPublicValueX, .eccPublicValueY] with
          haveAttrs := [.eccPrivateValue, .eccPublicValueX, .eccPublicValueY, .eccCurve] ++ o.haveAttrs },
          .ok ())) = (o', .ok ())) : Generated cfg props keySize o o' := by
  split at h
  · cases h
  cases h
  refine generate_spec hdef hparity (htas ▸ by decide) fun ta hta _ => mem_append_left _ ?_
  rw [htas] at hta
  have hall : ∀ ta ∈ eccKeypairAttrs,
      ta.id ∈ [AttrId.eccPrivateValue, .eccPublicValueX, .eccPublicValueY, .eccCurve] := by decide
  exact hall ta hta

lemma generateKeypair_spec (hprops : findTypeProps cfg o.objectType = some props)
    (hkeypair : o.objectType.isKeypair = true) (hhave : ∀ id ∈ reqAttrs .generateKey props, id ∈ o.haveAttrs)
    (h : generateKeypair env props o keySize params = (o', .ok ())) :
    Generated cfg props keySize o o' := by
  have hparity : withParity cfg o.objectType keySize = keySize := keypair_parity hkeypair keySize
  have hall : ∀ ta ∈ props.typeAttrs, .required ∈ ta.flags → ta.id ∈ props.typeAttrs.map (·.id) :=
    fun ta hta _ => mem_map_of_mem hta
  rw [generateKeypair] at h
  split at h
  · next htype =>
    rw [htype] at hprops
    cases hprops
    split at h
    · cases h
    split at h
    · cases h
    cases h
    refine ⟨rfl, rfl, fun ta hta hind => ?_, hall⟩
    have hid : ∀ ta ∈ rsaKeypairAttrs, .sizeIndicator ∈ ta.flags → ta.id = .rsaModulus := by decide
    rw [hparity, hid ta hta hind]
    rfl
  · next htype =>
    rw [htype] at hprops
    cases hprops
    split at h
    · cases h
    cases h
    exact generate_spec hdef hparity (by dsimp only; decide) hall
  · next htype =>
    rw [htype] at hprops
    cases hprops
    split at h
    · cases h
    cases h
    refine generate_spec hdef hparity (by dsimp only; decide) fun ta hta hreq => ?_
    have hcases : ∀ ta ∈ dhKeypairAttrs, .required ∈ ta.flags →
        ta.id ∈ [AttrId.dhPublicValue, .dhPrivateValue, .dhXBits] ∨ Usage.generateKey.requiredFlag ∈ ta.flags := by
      decide
    exact mem_append.mpr ((hcases ta hta hreq).imp_right fun hflag => hhave _ (mem_reqAttrs hta hflag))
  · next htype => exact generateEcc_spec hdef (by rw [htype] at hprops; cases hprops; rfl) hparity h
  · next htype => exact generateEcc_spec hdef (by rw [htype] at hprops; cases hprops; rfl) hparity h
  · next htype => exact generateEcc_spec hdef (by rw [htype] at hprops; cases hprops; rfl) hparity h
  · cases h

end

lemma generateByType_spec (hprops : findTypeProps cfg o.objectType = some props)
    (hsize : checkKeySize cfg o.objectType props keySize = .ok ())
    (htake : takeAttrs env .generateKey props params = .ok ()) (hmay : MayGenerate cfg o keySize params)
    (h : generateByType cfg env props o keySize params = (o', .ok ())) : Generated cfg props keySize o o' := by
  rw [generateByType] at h
  split at h
  · next hrandom => exact generateSecret_spec hprops hrandom hsize h
  split at h
  · cases h
  next hkeypair =>
  have hkeypair : o.objectType.isKeypair = true := by simpa using hkeypair
  have hreg := regular_of_find hprops
  obtain ⟨hnodup, hreq⟩ := takeAttrs_spec htake
  split at h
  · cases h
  next o1 heq =>
  obtain ⟨hhave, sz, hl, -⟩ := populateType_spec hreg hnodup heq
  have hgen : Generated cfg props keySize o1 o' := by
    refine generateKeypair_spec (fun ta hta hind hflag => ?_) (hl.type ▸ hprops) (hl.type ▸ hkeypair)
      (fun id hid => hhave id (hreq id hid)) h
    obtain ⟨a, ha, hfind, -, -, hcontent⟩ := hl.indicator hreg hta hind (hreq ta.id (mem_reqAttrs hta hflag))
    rw [hcontent]
    exact hmay.2 props hprops a ha ta hfind hind
  exact ⟨hgen.type.trans hl.type, hgen.max.trans hl.max, hl.type ▸ hgen.defined, hgen.required⟩

lemma objGenerateKey_fine (h : Fine cfg o) (hmay : MayGenerate cfg o keySize params) :
    Fine cfg (objGenerateKey cfg env o keySize params).1 := by
  rw [objGenerateKey]
  split
  · exact h
  split
  · exact h
  next hinit =>
  split
  · exact h
  next props hprops =>
  split
  · exact h
  next hsize =>
  split
  · exact h
  next htake =>
  split
  · next heq =>
    refine fine_of_not_initialized ?_
    have hkeep : (generateByType cfg env props o keySize params).1.initialized = o.initialized :=
      congrArg Prod.snd generateByType_head
    rw [heq] at hkeep
    exact hkeep.trans (by simpa using hinit)
  · next o' heq =>
    have hgen := generateByType_spec hprops hsize htake hmay heq
    refine fun _ => ⟨props, hgen.type ▸ hprops, ?_, hgen.max.symm ▸ hmay.1, fun ta hta hind => ?_, hgen.required⟩
    · rw [hgen.type]
      exact hsize
    · rw [hgen.type]
      exact hgen.defined ta hta hind

end Calls

instance (cfg : Config) (o : Obj) (attrs : List Attribute) : Decidable (MayPopulate cfg o attrs) := by
  unfold MayPopulate
  infer_instance

instance (cfg : Config) (o : Obj) (keySize : ℕ) (params : List Attribute) :
    Decidable (MayGenerate cfg o keySize params) := by
  unfold MayGenerate
  infer_instance

instance (dst src : Obj) : Decidable (MayCopy dst src) := inferInstanceAs (Decidable (_ ∧ _))

/-- Legal sizes to populate with, the size of the defining attribute to generate with, and copies into objects that
fit. -/
def Allowed (cfg : Config) (objs : List Obj) : Event → Prop
  | .alloc .. | .reset _ => True
  | .populate _ obj attrs => ∀ o ∈ objs[obj]?, MayPopulate cfg o attrs
  | .copy dst src => ∀ d ∈ objs[dst]?, ∀ o ∈ objs[src]?, MayCopy d o
  | .generateKey _ obj keySize params => ∀ o ∈ objs[obj]?, MayGenerate cfg o keySize params

instance (cfg : Config) (objs : List Obj) (e : Event) : Decidable (Allowed cfg objs e) := by
  unfold Allowed
  split <;> infer_instance

section Runs

variable {objs : List Obj}

lemma onObj_fine {obj : ℕ} {f : Obj → Obj × Except Error Unit} (h : ∀ o ∈ objs, Fine cfg o)
    (hf : ∀ o ∈ objs[obj]?, Fine cfg (f o).1) : ∀ o ∈ onObj objs obj f, Fine cfg o := by
  rw [onObj]
  split
  · exact h
  next o ho =>
  intro p hp
  obtain hp | rfl := mem_or_eq_of_mem_set hp
  · exact h p hp
  · exact hf o ho

lemma step_fine (h : ∀ o ∈ objs, Fine cfg o) (e : Event) (hallowed : Allowed cfg objs e) :
    ∃ objs', step cfg objs e = .ok objs' ∧ ∀ o ∈ objs', Fine cfg o := by
  cases e with
  | alloc env type maxKeySize =>
    rw [step]
    split
    · exact ⟨objs, rfl, h⟩
    next o ho =>
    refine ⟨_, rfl, fun p hp => ?_⟩
    obtain hp | hp := mem_append.mp hp
    · exact h p hp
    · rw [mem_singleton.mp hp]
      refine fine_of_not_initialized ?_
      rw [objAlloc] at ho
      split at ho
      · split at ho
        · cases ho
        · cases ho
          rfl
      · split at ho
        · cases ho
        · cases hcheck : checkKeySize cfg type _ maxKeySize with
          | error e =>
            rw [hcheck] at ho
            cases ho
          | ok u =>
            rw [hcheck] at ho
            split at ho
            · cases ho
              rfl
            · cases ho
  | reset obj =>
    refine ⟨_, rfl, onObj_fine h fun o ho => ?_⟩
    rw [objReset]
    split
    · exact h o (mem_of_getElem? ho)
    · exact fine_of_not_initialized rfl
  | populate env obj attrs =>
    exact ⟨_, rfl, onObj_fine h fun o ho => objPopulate_fine (h o (mem_of_getElem? ho)) (hallowed o ho)⟩
  | copy dst src =>
    rw [step]
    split
    · exact ⟨objs, rfl, h⟩
    · next o ho =>
      exact ⟨_, rfl, onObj_fine h fun d hd =>
        objCopy_fine (h d (mem_of_getElem? hd)) (h o (mem_of_getElem? ho)) (hallowed d hd o ho)⟩
  | generateKey env obj keySize params =>
    exact ⟨_, rfl, onObj_fine h fun o ho => objGenerateKey_fine (h o (mem_of_getElem? ho)) (hallowed o ho)⟩

end Runs

theorem run_legal (cfg : Config) (es : List Event) (hes : Along (step cfg) (Allowed cfg) [] es) :
    ∃ objs, run (step cfg) [] es = .ok objs ∧
      ∀ o ∈ objs, o.initialized = true → ∃ props, findTypeProps cfg o.objectType = some props ∧ Legal cfg props o :=
  hes.completes (fun _ ho => absurd ho not_mem_nil) fun _ e h ha => step_fine h e ha

def compat : Config := ⟨true, false, false, false, 4096⟩

def calm : Env := ⟨true, true, fun _ => true, true, fun _ => 0⟩

def secret (bytes : ℕ) : Attribute := ⟨.secretValue, 0, List.replicate bytes 1⟩

theorem run_legal_populate_copy :
    ∃ objs, run (step compat) [] [.alloc calm .aes 128, .populate calm 0 [secret 16], .alloc calm .aes 256, .copy 1 0,
        .alloc calm .des 56, .generateKey calm 2 56 []] = .ok objs ∧
      objs.map (fun o => (o.initialized, o.keySize)) = [(true, 128), (true, 128), (true, 56)] ∧
      ∀ o ∈ objs, o.initialized = true →
        ∃ props, findTypeProps compat o.objectType = some props ∧ Legal compat props o := by
  obtain ⟨objs, hrun, hlegal⟩ := run_legal compat [.alloc calm .aes 128, .populate calm 0 [secret 16],
    .alloc calm .aes 256, .copy 1 0, .alloc calm .des 56, .generateKey calm 2 56 []] (by decide)
  refine ⟨objs, hrun, ?_, hlegal⟩
  cases hrun
  decide

def Illegal (es : List Event) : Prop :=
  ∃ objs o, run (step compat) [] es = .ok objs ∧ o ∈ objs ∧ o.initialized = true ∧
    ¬∃ props, findTypeProps compat o.objectType = some props ∧ Legal compat props o

theorem key_size_not_legal :
    Illegal [.alloc calm .aes 128, .populate calm 0 [secret 8]] ∧
    Illegal [.alloc calm .aes 128, .generateKey calm 0 256 []] ∧
    Illegal [.alloc calm .des 56, .populate calm 0 [secret 8]] ∧
    Illegal [.alloc calm .data 0, .alloc calm .aes 128, .generateKey calm 1 128 [], .copy 0 1] := by
  refine ⟨⟨_, _, rfl, mem_cons_self, rfl, ?_⟩, ⟨_, _, rfl, mem_cons_self, rfl, ?_⟩,
    ⟨_, _, rfl, mem_cons_self, rfl, ?_⟩, _, _, rfl, mem_cons_self, rfl, ?_⟩
  · rintro ⟨props, hprops, hlegal⟩
    cases hprops
    exact absurd hlegal.size (by decide)
  · rintro ⟨props, hprops, hlegal⟩
    exact absurd hlegal.max (by decide)
  · rintro ⟨props, hprops, hlegal⟩
    cases hprops
    exact absurd hlegal.size (by decide)
  · rintro ⟨props, hprops, -⟩
    cases hprops

end Optee.Cryp
