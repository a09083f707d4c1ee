import Optee.Cryp.States
import Optee.Lib.Runs

/-! The keys of cryptographic states are the objects that were registered for them. -/

namespace Optee.Cryp.States

open Lib.Runs Option Function

def World.Refers (w : World) (s a : ℕ) : Prop := ∃ cs ∈ w.states s, a ≠ 0 ∧ (cs.key1 = a ∨ cs.key2 = a)

def Resolves (cfg : Config) (w : World) (cs : CrypState) (key : ℕ) (registered : Option TeeObj) : Prop :=
  match registered with
  | none => key = 0
  | some r =>
    r.info.objectType ∈ reqKeyTypes cfg cs.algo cs.mode ∧
      ∃ o ∈ w.objects key, o.number = r.number ∧ o.info.objectType = r.info.objectType

structure Registered (cfg : Config) (w : World) : Prop where
  null : w.objects 0 = none
  key1 : ∀ s, ∀ cs ∈ w.states s, Resolves cfg w cs cs.key1 cs.registered1
  key2 : ∀ s, ∀ cs ∈ w.states s, Resolves cfg w cs cs.key2 cs.registered2
  busy : ∀ a, ∀ o ∈ w.objects a, o.busy = true → ∃! s, w.Refers s a
  idle : ∀ a, ∀ o ∈ w.objects a, o.busy = false → ∀ s, ¬w.Refers s a

def Untouched (w : World) (key : ℕ) (registered : Option TeeObj) : Prop :=
  ∀ r ∈ registered, ∀ o ∈ w.objects key, o.info = r.info ∧ o.version = r.version

def Unchanged (w : World) : Prop :=
  ∀ s, ∀ cs ∈ w.states s, Untouched w cs.key1 cs.registered1 ∧ Untouched w cs.key2 cs.registered2

def UsageAccepted (required : UInt32 → Mode → UInt32) (w : World) : Prop :=
  ∀ s, ∀ cs ∈ w.states s, ∀ r, r ∈ cs.registered1 ∨ r ∈ cs.registered2 →
    r.objectUsage &&& required cs.algo cs.mode = required cs.algo cs.mode

def Call.closes : Call → Option ℕ
  | .storageObjDel obj _ => some obj
  | .storageObjRead obj file | .storageObjTrunc obj file => if file = .error .corruptObject then some obj else none
  | _ => none

def Call.writes : Call → Option ℕ
  | .objReset obj | .objPopulate _ obj _ | .objCopy obj _ | .objGenerateKey _ obj _ _ | .crypDeriveKey _ obj _ =>
    some obj
  | _ => none

def World.Idle (w : World) (a : ℕ) : Prop := ∀ o ∈ w.objects a, o.busy = false

instance (w : World) (a : ℕ) : Decidable (w.Idle a) := inferInstanceAs (Decidable (∀ o ∈ w.objects a, o.busy = false))

def KeepsBusy (w : World) (c : Call) : Prop := ∀ a ∈ c.closes, w.Idle a

def LeavesBusy (w : World) (c : Call) : Prop := ∀ a ∈ c.writes, w.Idle a

def ChecksUsage (required : UInt32 → Mode → UInt32) (w : World) : Call → Prop
  | .crypStateAlloc _ _ algo mode key1 key2 _ => ∀ key ∈ [key1, key2], ∀ o ∈ w.objects key,
    o.objectUsage &&& required algo mode = required algo mode
  | _ => True

instance (w : World) (c : Call) : Decidable (KeepsBusy w c) := inferInstanceAs (Decidable (∀ a ∈ c.closes, w.Idle a))

instance (w : World) (c : Call) : Decidable (LeavesBusy w c) := inferInstanceAs (Decidable (∀ a ∈ c.writes, w.Idle a))

instance (required : UInt32 → Mode → UInt32) (w : World) (c : Call) : Decidable (ChecksUsage required w c) := by
  unfold ChecksUsage
  split <;> infer_instance

variable {o : TeeObj} {cfg : Config} {w w' : World} {c : Call}

def CrypState.new (algo : UInt32) (mode : Mode) : CrypState := ⟨algo, mode, 0, 0, false, none, none⟩

inductive Move (cfg : Config) (w : World) (c : Call) : World → Prop
  | stay : Move cfg w c w
  | add (a : ℕ) (o : TeeObj) (hunused : w.Unused a) (hidle : o.busy = false) :
    Move cfg w c { w.setObj a o with allocated := w.allocated + 1 }
  | discard : Move cfg w c { w with allocated := w.allocated + 1 }
  | close (a : ℕ) (h : w.Idle a ∨ a ∈ c.closes) : Move cfg w c (teeObjClose w a)
  | change (a : ℕ) (o o' : TeeObj) (ho : w.objects a = some o) (hnumber : o'.number = o.number)
    (hbusy : o'.busy = o.busy) (htype : o'.info.objectType = o.info.objectType)
    (h : (o'.info = o.info ∧ o'.version = o.version) ∨ a ∈ c.writes) : Move cfg w c (w.setObj a o')
  | register (s : ℕ) (copied : Bool) (algo : UInt32) (mode : Mode) (key1 key2 : ℕ) (ctx : Except Cryp.Error Unit)
    (o1 o2 : Option TeeObj) (hc : c = .crypStateAlloc s copied algo mode key1 key2 ctx) (hunused : w.Unused s)
    (hkey1 : checkKey cfg w algo mode key1 = .ok o1) (hkey2 : checkKey cfg w algo mode key2 = .ok o2) :
    Move cfg w c (register (w.setState s (.new algo mode)) s (.new algo mode) key1 key2 o1 o2)
  | free (s : ℕ) (cs : CrypState) (hs : w.states s = some cs) : Move cfg w c (freeState w s cs)
  | update (s : ℕ) (cs : CrypState) (initialized : Bool) (hs : w.states s = some cs) :
    Move cfg w c (w.setState s { cs with initialized := initialized })

variable {a : ℕ}

lemma update_none {α : Type} {f : ℕ → Option α} (x : Option α) (h : f a = none) :
    Function.update (Function.update f a x) a none = f := by
  rw [update_idem, ← h, update_eq_self]

variable {copied : Bool} {obj s : ℕ} {ctx : Except Cryp.Error Unit} {env : Env}

lemma addObj_move (hunused : w.Unused a) (hidle : o.busy = false) : Move cfg w c (addObj w a o copied).1 := by
  rw [addObj]
  split
  · exact .add a { o with number := w.allocated } hunused hidle
  · have h : Function.update (Function.update w.objects a _) a none = w.objects :=
      update_none (some { o with number := w.allocated }) (isNone_iff_eq_none.mp hunused.2.1)
    simp only [teeObjClose, World.setObj, h]
    exact .discard

lemma onObj_move {f : TeeObj → TeeObj × Except Error Unit}
    (hf : ∀ o, (f o).1.number = o.number ∧ (f o).1.busy = o.busy ∧ (f o).1.info.objectType = o.info.objectType ∧
      (((f o).1.info = o.info ∧ (f o).1.version = o.version) ∨ obj ∈ c.writes)) : Move cfg w c (onObj w obj f).1 := by
  rw [onObj]
  split
  · exact .stay
  · next o ho =>
    obtain ⟨hnumber, hbusy, htype, h⟩ := hf o
    exact .change obj o (f o).1 ho hnumber hbusy htype h

lemma change_keeps (o : TeeObj) (checked : Bool) (usage : UInt32) {r : Obj × Except Cryp.Error Unit}
    (hr : r.1.objectType = o.info.objectType) :
    (o.change checked usage r).1.number = o.number ∧ (o.change checked usage r).1.busy = o.busy ∧
      (o.change checked usage r).1.info.objectType = o.info.objectType := by
  rw [TeeObj.change]
  split
  · exact ⟨rfl, rfl, hr⟩
  · exact ⟨rfl, rfl, rfl⟩

lemma onFile_move {access : TeeObj → Bool} {file : Except Error Unit}
    (hc : file = .error .corruptObject → obj ∈ c.closes) : Move cfg w c (onFile w obj access file).1 := by
  rw [onFile]
  split
  · exact .stay
  split
  · exact .stay
  split
  · exact .stay
  split
  · next hfile => exact .close obj (.inr (hc hfile))
  · exact .stay

lemma initState_move {keys : CrypState → Except Cryp.Error Unit} : Move cfg w c (initState w s keys ctx).1 := by
  rw [initState]
  split
  · exact .stay
  next cs hs =>
  split
  · exact .stay
  · exact .stay
  · exact .update s cs true hs

lemma freeState_new (h0 : w.objects 0 = none) (hunused : w.Unused s) (algo : UInt32) (mode : Mode) :
    freeState (w.setState s (.new algo mode)) s (.new algo mode) = w := by
  have hclose : ∀ w : World, w.objects 0 = none → closeKey w 0 = w := by
    intro w h
    rw [closeKey, h]
  have hstates : Function.update (Function.update w.states s _) s none = w.states :=
    update_none (some (.new algo mode)) (isNone_iff_eq_none.mp hunused.2.2)
  simp only [freeState, CrypState.new, World.setState, hclose, h0, CrypState.new] at hstates ⊢
  rw [hstates]

lemma crypStateAlloc_move (h0 : w.objects 0 = none) {key1 key2 : ℕ} {algo : UInt32} {mode : Mode}
    (hc : c = .crypStateAlloc s copied algo mode key1 key2 ctx) :
    Move cfg w c (crypStateAlloc cfg w s copied algo mode key1 key2 ctx).1 := by
  rw [crypStateAlloc]
  split
  · exact .stay
  next o1 hkey1 =>
  split
  · exact .stay
  next o2 hkey2 =>
  split
  · exact .stay
  next hunused =>
  rw [not_not] at hunused
  dsimp only
  split
  · rw [← CrypState.new, freeState_new h0 hunused]
    exact .stay
  split
  · exact .register s copied algo mode key1 key2 ctx o1 o2 hc hunused hkey1 hkey2
  · rw [← CrypState.new, freeState_new h0 hunused]
    exact .stay

lemma objAlloc_move {a maxKeySize : ℕ} {type : ObjType} :
    Move cfg w c (objAlloc cfg w env a copied type maxKeySize).1 := by
  rw [objAlloc]
  split
  · exact .stay
  next hunused =>
  split
  · exact .stay
  · exact addObj_move (not_not.mp hunused) rfl

lemma objClose_move : Move cfg w c (objClose w obj).1 := by
  rw [objClose]
  split
  · exact .stay
  next o ho =>
  split
  · exact .stay
  next hbusy =>
  refine .close obj (.inl fun o' ho' => ?_)
  rw [ho] at ho'
  cases ho'
  exact Bool.eq_false_iff.mpr hbusy

lemma objCopy_move {dst src : ℕ} (hc : dst ∈ c.writes) : Move cfg w c (objCopy cfg w dst src).1 := by
  rw [objCopy]
  split
  · next d s _ _ =>
    refine onObj_move fun o => ?_
    have htype : (Cryp.objCopy cfg.toConfig o.info s.info).1.objectType = o.info.objectType := objCopy_type
    split
    all_goals
      next info _ heq =>
      rw [heq] at htype
      obtain ⟨hnumber, hbusy, h⟩ := change_keeps o (o.fillable && s.info.initialized) _ htype
      exact ⟨hnumber, hbusy, h, .inr hc⟩
  · exact .stay

lemma storageObjOpen_move {flags : Flags} {file : Except Error (Obj × UInt32)} :
    Move cfg w c (storageObjOpen cfg w env a copied flags file).1 := by
  unfold storageObjOpen
  split
  · exact .stay
  next hunused =>
  split
  · exact .stay
  split
  · exact .stay
  · exact addObj_move (not_not.mp hunused) rfl

lemma storageObjCreate_move {a attr : ℕ} {flags : Flags} {created : Except Error Unit} :
    Move cfg w c (storageObjCreate cfg w env a copied flags attr created).1 := by
  rw [storageObjCreate]
  split
  · exact .stay
  next hunused =>
  split
  · exact .stay
  split
  · exact .stay
  · exact .stay
  · exact addObj_move (not_not.mp hunused) rfl

lemma storageObjDel_move {removed : Except Error Unit} (hc : obj ∈ c.closes) :
    Move cfg w c (storageObjDel w obj removed).1 := by
  rw [storageObjDel]
  split
  · exact .stay
  split
  · exact .stay
  split
  · exact .stay
  · exact .close obj (.inr hc)

lemma crypStateFree_move : Move cfg w c (crypStateFree w s).1 := by
  rw [crypStateFree]
  split
  · exact .stay
  · next cs hs => exact .free s cs hs

lemma crypStateCopy_move {dst src : ℕ} : Move cfg w c (crypStateCopy w dst src).1 := by
  rw [crypStateCopy]
  split
  · next d s hd _ =>
    split
    · exact .stay
    split
    · exact .stay
    · exact .update dst d s.initialized hd
  · exact .stay

lemma crypDeriveKey_move {derived : ℕ} {secret : Except Cryp.Error ℕ} (hc : derived ∈ c.writes) :
    Move cfg w c (crypDeriveKey cfg w s derived secret).1 := by
  rw [crypDeriveKey]
  split
  · exact .stay
  split
  · next so _ hso =>
    split
    · exact .stay
    split
    · exact .stay
    split
    · exact .stay
    split
    · exact .stay
    · exact .change derived so _ hso rfl rfl rfl (.inr hc)
  · exact .stay

lemma call_move (h0 : w.objects 0 = none) (c : Call) : Move cfg w c (call cfg w c).1 := by
  cases c with
  | objAlloc env addr copied type maxKeySize => exact objAlloc_move
  | objClose obj => exact objClose_move
  | objReset obj =>
    refine onObj_move fun o => ?_
    obtain ⟨hnumber, hbusy, h⟩ := change_keeps o (!o.info.persistent) usageDefault (r := Cryp.objReset o.info)
      (by rw [Cryp.objReset]; split <;> rfl)
    exact ⟨hnumber, hbusy, h, .inr rfl⟩
  | objPopulate env obj attrs =>
    refine onObj_move fun o => ?_
    obtain ⟨hnumber, hbusy, h⟩ := change_keeps o o.fillable o.objectUsage
      objPopulate_type
    exact ⟨hnumber, hbusy, h, .inr rfl⟩
  | objCopy dst src => exact objCopy_move rfl
  | objGenerateKey env obj keySize params =>
    refine onObj_move fun o => ?_
    obtain ⟨hnumber, hbusy, h⟩ := change_keeps o o.fillable o.objectUsage
      objGenerateKey_type
    exact ⟨hnumber, hbusy, h, .inr rfl⟩
  | objRestrictUsage obj usage => exact onObj_move fun o => ⟨rfl, rfl, rfl, .inl ⟨rfl, rfl⟩⟩
  | storageObjOpen env addr copied flags file => exact storageObjOpen_move
  | storageObjCreate env addr copied flags attr created => exact storageObjCreate_move
  | storageObjDel obj removed => exact storageObjDel_move rfl
  | storageObjRead obj file | storageObjTrunc obj file => exact onFile_move fun h => if_pos h
  | crypStateAlloc addr copied algo mode key1 key2 ctx => exact crypStateAlloc_move h0 rfl
  | crypStateFree state => exact crypStateFree_move
  | crypStateCopy dst src => exact crypStateCopy_move
  | hashInit state ctx | cipherInit state ctx | authencInit state ctx => exact initState_move
  | crypDeriveKey state derived secret => exact crypDeriveKey_move rfl

variable {cs : CrypState} {s' a key : ℕ} {reg : Option TeeObj}

lemma Resolves.keep (h : Resolves cfg w cs key reg)
    (hkeep : ∀ o ∈ w.objects key, ∃ o' ∈ w'.objects key, o'.number = o.number ∧
      o'.info.objectType = o.info.objectType) : Resolves cfg w' cs key reg := by
  cases reg with
  | none => exact h
  | some r =>
    obtain ⟨haccepted, o, ho, hnumber, htype⟩ := h
    obtain ⟨o', ho', hnumber', htype'⟩ := hkeep o ho
    exact ⟨haccepted, o', ho', hnumber'.trans hnumber, htype'.trans htype⟩

lemma Resolves.object (h : Resolves cfg w cs key reg) (hkey : key ≠ 0) : ∃ o, w.objects key = some o := by
  cases reg with
  | none => exact absurd h hkey
  | some r =>
    obtain ⟨-, o, ho, -⟩ := h
    exact ⟨o, ho⟩

section

variable (h : Registered cfg w)
include h

lemma Registered.object (href : w.Refers s a) : ∃ o, w.objects a = some o ∧ o.busy = true := by
  obtain ⟨cs, hs, ha, hkey⟩ := href
  have hobject : ∃ o, w.objects a = some o := by
    obtain rfl | rfl := hkey
    · exact (h.key1 s cs hs).object ha
    · exact (h.key2 s cs hs).object ha
  obtain ⟨o, ho⟩ := hobject
  refine ⟨o, ho, ?_⟩
  by_contra hbusy
  exact h.idle a o ho (Bool.eq_false_iff.mpr hbusy) s ⟨cs, hs, ha, hkey⟩

lemma Registered.unique (href : w.Refers s a) (href' : w.Refers s' a) : s = s' := by
  obtain ⟨o, ho, hbusy⟩ := h.object href
  exact (h.busy a o ho hbusy).unique href href'

lemma Registered.refers_key1 (hs : w.states s = some cs) (ho : w.objects cs.key1 = some o) : w.Refers s cs.key1 := by
  refine ⟨cs, hs, fun h0 => ?_, .inl rfl⟩
  rw [h0, h.null] at ho
  cases ho

lemma Registered.refers_key2 (hs : w.states s = some cs) (ho : w.objects cs.key2 = some o) : w.Refers s cs.key2 := by
  refine ⟨cs, hs, fun h0 => ?_, .inr rfl⟩
  rw [h0, h.null] at ho
  cases ho

lemma Registered.of_objects (hstates : w'.states = w.states) (hnull : w'.objects 0 = none)
    (hkeep : ∀ a, ∀ o ∈ w.objects a, o.busy = true →
      ∃ o' ∈ w'.objects a, o'.number = o.number ∧ o'.info.objectType = o.info.objectType)
    (hback : ∀ a, ∀ o' ∈ w'.objects a, (∃ o ∈ w.objects a, o.busy = o'.busy) ∨ w.objects a = none ∧ o'.busy = false) :
    Registered cfg w' := by
  have hrefers : ∀ s a, w'.Refers s a ↔ w.Refers s a := by
    intro s a
    rw [World.Refers, hstates, World.Refers]
  constructor
  case null => exact hnull
  case key1 =>
    intro s cs hs
    rw [hstates] at hs
    refine (h.key1 s cs hs).keep fun o ho => ?_
    obtain ⟨o', ho', hbusy⟩ := h.object (h.refers_key1 hs ho)
    rw [ho] at ho'
    cases ho'
    exact hkeep _ o ho hbusy
  case key2 =>
    intro s cs hs
    rw [hstates] at hs
    refine (h.key2 s cs hs).keep fun o ho => ?_
    obtain ⟨o', ho', hbusy⟩ := h.object (h.refers_key2 hs ho)
    rw [ho] at ho'
    cases ho'
    exact hkeep _ o ho hbusy
  case busy =>
    intro a o' ho' hbusy
    simp only [hrefers]
    obtain ⟨o, ho, heq⟩ | ⟨-, hidle⟩ := hback a o' ho'
    · exact h.busy a o ho (heq.trans hbusy)
    · rw [hbusy] at hidle
      cases hidle
  case idle =>
    intro a o' ho' hidle s
    rw [hrefers]
    obtain ⟨o, ho, heq⟩ | ⟨hnone, -⟩ := hback a o' ho'
    · exact h.idle a o ho (heq.trans hidle) s
    · intro href
      obtain ⟨o, ho, -⟩ := h.object href
      rw [hnone] at ho
      cases ho

end

lemma setObj_self (w : World) (a : ℕ) (o : TeeObj) : (w.setObj a o).objects a = some o := update_self ..

variable {b : ℕ}

lemma setObj_other (w : World) (o : TeeObj) (h : b ≠ a) : (w.setObj a o).objects b = w.objects b :=
  update_of_ne h ..

lemma Registered.add (h : Registered cfg w) (hunused : w.Unused a) (hidle : o.busy = false) :
    Registered cfg { w.setObj a o with allocated := w.allocated + 1 } := by
  have hnone : w.objects a = none := isNone_iff_eq_none.mp hunused.2.1
  refine h.of_objects rfl ((setObj_other w o hunused.1.symm).trans h.null) ?_ ?_
  · intro b p hp _
    have hb : b ≠ a := by
      rintro rfl
      rw [hnone] at hp
      cases hp
    exact ⟨p, (setObj_other w o hb).trans hp, rfl, rfl⟩
  · intro b p hp
    obtain rfl | hb := eq_or_ne b a
    · cases (setObj_self w b o).symm.trans hp
      exact .inr ⟨hnone, hidle⟩
    · exact .inl ⟨p, (setObj_other w o hb).symm.trans hp, rfl⟩

lemma Registered.discard (h : Registered cfg w) : Registered cfg { w with allocated := w.allocated + 1 } :=
  h.of_objects rfl h.null (fun _ o ho _ => ⟨o, ho, rfl, rfl⟩) (fun _ o ho => .inl ⟨o, ho, rfl⟩)

lemma close_eq_some : (teeObjClose w a).objects b = some o ↔ b ≠ a ∧ w.objects b = some o := by
  show Function.update w.objects a none b = some o ↔ _
  rw [update_apply]
  split <;> simp [*]

lemma Registered.close (h : Registered cfg w) (hidle : w.Idle a) : Registered cfg (teeObjClose w a) := by
  refine h.of_objects rfl ?_ ?_ ?_
  · rw [eq_none_iff_forall_ne_some]
    intro o ho
    have := (close_eq_some.mp ho).2
    rw [h.null] at this
    cases this
  · intro b o ho hbusy
    refine ⟨o, close_eq_some.mpr ⟨?_, ho⟩, rfl, rfl⟩
    rintro rfl
    rw [hidle o ho] at hbusy
    cases hbusy
  · intro b o ho
    exact .inl ⟨o, (close_eq_some.mp ho).2, rfl⟩

lemma Registered.change (h : Registered cfg w) {o' : TeeObj} (ho : w.objects a = some o)
    (hnumber : o'.number = o.number) (hbusy : o'.busy = o.busy) (htype : o'.info.objectType = o.info.objectType) :
    Registered cfg (w.setObj a o') := by
  have ha : (0 : ℕ) ≠ a := by
    rintro rfl
    rw [h.null] at ho
    cases ho
  refine h.of_objects rfl ((setObj_other w o' ha).trans h.null) ?_ ?_
  · intro b p hp _
    obtain rfl | hb := eq_or_ne b a
    · cases ho.symm.trans hp
      exact ⟨o', setObj_self w b o', hnumber, htype⟩
    · exact ⟨p, (setObj_other w o' hb).trans hp, rfl, rfl⟩
  · intro b p hp
    obtain rfl | hb := eq_or_ne b a
    · cases (setObj_self w b o').symm.trans hp
      exact .inl ⟨o, ho, hbusy.symm⟩
    · exact .inl ⟨p, (setObj_other w o' hb).symm.trans hp, rfl⟩

variable {algo : UInt32} {mode : Mode} {key1 key2 : ℕ} {o1 o2 : Option TeeObj} {cs' : CrypState} {cs : CrypState}

lemma setState_eq_some :
    (w.setState s cs).states b = some cs' ↔ b = s ∧ cs = cs' ∨ b ≠ s ∧ w.states b = some cs' := by
  show Function.update w.states s (some cs) b = some cs' ↔ _
  rw [update_apply]
  split <;> simp [*]

lemma Registered.update (h : Registered cfg w) (hs : w.states s = some cs) (initialized : Bool) :
    Registered cfg (w.setState s { cs with initialized := initialized }) := by
  have hrefers : ∀ b a, (w.setState s { cs with initialized := initialized }).Refers b a ↔ w.Refers b a := by
    intro b a
    constructor
    · rintro ⟨cs', hcs', ha, hkey⟩
      obtain ⟨rfl, rfl⟩ | ⟨-, hcs'⟩ := setState_eq_some.mp hcs'
      · exact ⟨cs, hs, ha, hkey⟩
      · exact ⟨cs', hcs', ha, hkey⟩
    · rintro ⟨cs', hcs', ha, hkey⟩
      obtain rfl | hb := eq_or_ne b s
      · cases hs.symm.trans hcs'
        exact ⟨_, setState_eq_some.mpr (.inl ⟨rfl, rfl⟩), ha, hkey⟩
      · exact ⟨cs', setState_eq_some.mpr (.inr ⟨hb, hcs'⟩), ha, hkey⟩
  constructor
  case null => exact h.null
  case key1 =>
    intro b cs' hcs'
    obtain ⟨rfl, rfl⟩ | ⟨-, hcs'⟩ := setState_eq_some.mp hcs'
    · exact h.key1 b cs hs
    · exact h.key1 b cs' hcs'
  case key2 =>
    intro b cs' hcs'
    obtain ⟨rfl, rfl⟩ | ⟨-, hcs'⟩ := setState_eq_some.mp hcs'
    · exact h.key2 b cs hs
    · exact h.key2 b cs' hcs'
  case busy =>
    intro a o ho hbusy
    simp only [hrefers]
    exact h.busy a o ho hbusy
  case idle =>
    intro a o ho hidle b
    rw [hrefers]
    exact h.idle a o ho hidle b

lemma closeKey_eq_some : (closeKey w key).objects b = some o ↔ b ≠ key ∧ w.objects b = some o := by
  rw [closeKey]
  split
  · next hnone =>
    constructor
    · intro ho
      refine ⟨?_, ho⟩
      rintro rfl
      rw [hnone] at ho
      cases ho
    · exact fun ho => ho.2
  · exact close_eq_some

lemma freeState_object : (freeState w s cs).objects b = some o ↔ b ≠ cs.key1 ∧ b ≠ cs.key2 ∧ w.objects b = some o := by
  show (closeKey (closeKey w cs.key1) cs.key2).objects b = some o ↔ _
  rw [closeKey_eq_some, closeKey_eq_some]
  tauto

lemma closeKey_states (w : World) (key : ℕ) : (closeKey w key).states = w.states := by
  rw [closeKey]
  split <;> rfl

lemma freeState_state : (freeState w s cs).states b = some cs' ↔ b ≠ s ∧ w.states b = some cs' := by
  show Function.update (closeKey (closeKey w cs.key1) cs.key2).states s none b = some cs' ↔ _
  rw [closeKey_states, closeKey_states, update_apply]
  split <;> simp [*]

lemma Registered.apart (h : Registered cfg w) (hs : w.states s = some cs) (hne : s' ≠ s) (href : w.Refers s' a) :
    a ≠ cs.key1 ∧ a ≠ cs.key2 := by
  have ha : a ≠ 0 := href.choose_spec.2.1
  constructor
  · intro hkey
    exact hne (h.unique href ⟨cs, hs, ha, .inl hkey.symm⟩)
  · intro hkey
    exact hne (h.unique href ⟨cs, hs, ha, .inr hkey.symm⟩)

lemma Registered.free (h : Registered cfg w) (hs : w.states s = some cs) : Registered cfg (freeState w s cs) := by
  have hrefers : ∀ b a, (freeState w s cs).Refers b a ↔ b ≠ s ∧ w.Refers b a := by
    simp [World.Refers, mem_def, freeState_state, and_assoc, exists_and_left]
  constructor
  case null =>
    rw [eq_none_iff_forall_ne_some]
    intro o ho
    have := (freeState_object.mp ho).2.2
    rw [h.null] at this
    cases this
  case key1 =>
    intro b cs' hcs'
    obtain ⟨hb, hcs'⟩ := freeState_state.mp hcs'
    refine (h.key1 b cs' hcs').keep fun o ho => ⟨o, freeState_object.mpr ?_, rfl, rfl⟩
    obtain ⟨h1, h2⟩ := h.apart hs hb (h.refers_key1 hcs' ho)
    exact ⟨h1, h2, ho⟩
  case key2 =>
    intro b cs' hcs'
    obtain ⟨hb, hcs'⟩ := freeState_state.mp hcs'
    refine (h.key2 b cs' hcs').keep fun o ho => ⟨o, freeState_object.mpr ?_, rfl, rfl⟩
    obtain ⟨h1, h2⟩ := h.apart hs hb (h.refers_key2 hcs' ho)
    exact ⟨h1, h2, ho⟩
  case busy =>
    intro a o ho hbusy
    obtain ⟨h1, h2, ho⟩ := freeState_object.mp ho
    obtain ⟨b, hb, hunique⟩ := h.busy a o ho hbusy
    refine ⟨b, (hrefers b a).mpr ⟨?_, hb⟩, fun b' hb' => hunique b' ((hrefers b' a).mp hb').2⟩
    rintro rfl
    obtain ⟨cs', hcs', -, hkey⟩ := hb
    cases hs.symm.trans hcs'
    exact hkey.elim (fun hkey => h1 hkey.symm) fun hkey => h2 hkey.symm
  case idle =>
    intro a o ho hidle b hb
    exact h.idle a o (freeState_object.mp ho).2.2 hidle b ((hrefers b a).mp hb).2

lemma checkKey_spec (h : checkKey cfg w algo mode key = .ok reg) :
    (key = 0 ∧ reg = none) ∨ ∃ o, key ≠ 0 ∧ w.objects key = some o ∧ reg = some o ∧ o.busy = false ∧
      o.info.objectType ∈ reqKeyTypes cfg algo mode := by
  rw [checkKey] at h
  split at h
  · next h0 =>
    cases h
    exact .inl ⟨h0, rfl⟩
  next h0 =>
  split at h
  · cases h
  next o ho =>
  split at h
  · cases h
  next hidle =>
  split at h
  · next htype =>
    cases h
    exact .inr ⟨o, h0, ho, rfl, Bool.eq_false_iff.mpr hidle, htype⟩
  · cases h

lemma markBusy_object (w : World) (key b : ℕ) :
    (markBusy w key).objects b = (w.objects b).map fun o => { o with busy := o.busy || decide (b = key) } := by
  obtain rfl | hb := eq_or_ne b key
  · rw [markBusy]
    split
    · next hnone => simp [hnone]
    · next o ho => simp [setObj_self, ho]
  · have hobject : (markBusy w key).objects b = w.objects b := by
      rw [markBusy]
      split
      · rfl
      · exact setObj_other w _ hb
    simp [hobject, hb]

lemma markBusy_states (w : World) (key : ℕ) : (markBusy w key).states = w.states := by
  rw [markBusy]
  split <;> rfl

def TeeObj.marked (o : TeeObj) (key1 key2 b : ℕ) : TeeObj :=
  { o with busy := o.busy || decide (b = key1) || decide (b = key2) }

lemma register_object (w : World) (s : ℕ) (cs cs' : CrypState) (key1 key2 b : ℕ) (o1 o2 : Option TeeObj) :
    (register (w.setState s cs) s cs' key1 key2 o1 o2).objects b = (w.objects b).map (·.marked key1 key2 b) := by
  show (markBusy (markBusy (w.setState s cs) key1) key2).objects b = _
  rw [markBusy_object, markBusy_object, map_map]
  rfl

lemma register_state {cs cs'' : CrypState} : (register (w.setState s cs) s cs' key1 key2 o1 o2).states b = some cs'' ↔
      b = s ∧ { cs' with key1 := key1, key2 := key2, registered1 := o1, registered2 := o2 } = cs'' ∨
        b ≠ s ∧ w.states b = some cs'' := by
  rw [register, setState_eq_some, markBusy_states, markBusy_states, setState_eq_some]
  tauto

lemma register_keep (ho : w.objects b = some o) :
    ∃ o' ∈ (register (w.setState s cs) s cs' key1 key2 o1 o2).objects b, o'.number = o.number ∧
      o'.info.objectType = o.info.objectType := by
  refine ⟨o.marked key1 key2 b, ?_, rfl, rfl⟩
  rw [register_object, ho]
  rfl

lemma register_refers (hunused : w.Unused s) :
    (register (w.setState s cs) s cs key1 key2 o1 o2).Refers b a ↔
      (b = s ∧ a ≠ 0 ∧ (key1 = a ∨ key2 = a)) ∨ w.Refers b a := by
  constructor
  · rintro ⟨cs', hcs', ha, hkey⟩
    obtain ⟨hb, rfl⟩ | ⟨-, hcs'⟩ := register_state.mp hcs'
    · exact .inl ⟨hb, ha, hkey⟩
    · exact .inr ⟨cs', hcs', ha, hkey⟩
  · rintro (⟨hb, ha, hkey⟩ | ⟨cs', hcs', ha, hkey⟩)
    · exact ⟨_, register_state.mpr (.inl ⟨hb, rfl⟩), ha, hkey⟩
    · refine ⟨cs', register_state.mpr (.inr ⟨?_, hcs'⟩), ha, hkey⟩
      rintro rfl
      rw [isNone_iff_eq_none.mp hunused.2.2] at hcs'
      cases hcs'

lemma Registered.idle_of_checkKey (h : Registered cfg w) (hkey : checkKey cfg w algo mode key = .ok reg)
    (ho : w.objects key = some o) : o.busy = false := by
  obtain ⟨rfl, -⟩ | ⟨o', -, ho', -, hidle, -⟩ := checkKey_spec hkey
  · rw [h.null] at ho
    cases ho
  · cases ho.symm.trans ho'
    exact hidle

lemma resolves_of_checkKey (hkey : checkKey cfg w algo mode key = .ok reg) (halgo : cs'.algo = algo)
    (hmode : cs'.mode = mode) : Resolves cfg (register (w.setState s cs) s cs key1 key2 o1 o2) cs' key reg := by
  obtain ⟨h0, rfl⟩ | ⟨o, -, ho, rfl, -, htype⟩ := checkKey_spec hkey
  · exact h0
  · refine ⟨?_, register_keep ho⟩
    rw [halgo, hmode]
    exact htype

lemma Registered.register (h : Registered cfg w) (hunused : w.Unused s)
    (hkey1 : checkKey cfg w algo mode key1 = .ok o1) (hkey2 : checkKey cfg w algo mode key2 = .ok o2) :
    Registered cfg (register (w.setState s (.new algo mode)) s (.new algo mode) key1 key2 o1 o2) := by
  constructor
  case null =>
    rw [register_object, h.null]
    rfl
  case key1 =>
    intro b cs hcs
    obtain ⟨-, rfl⟩ | ⟨-, hcs⟩ := register_state.mp hcs
    · exact resolves_of_checkKey hkey1 rfl rfl
    · exact (h.key1 b cs hcs).keep fun o ho => register_keep ho
  case key2 =>
    intro b cs hcs
    obtain ⟨-, rfl⟩ | ⟨-, hcs⟩ := register_state.mp hcs
    · exact resolves_of_checkKey hkey2 rfl rfl
    · exact (h.key2 b cs hcs).keep fun o ho => register_keep ho
  case busy =>
    intro a o' ho' hbusy
    rw [register_object, mem_def, map_eq_some_iff] at ho'
    obtain ⟨o, ho, rfl⟩ := ho'
    simp only [register_refers hunused]
    by_cases hkey : key1 = a ∨ key2 = a
    · have hidle : o.busy = false := by
        obtain rfl | rfl := hkey
        · exact h.idle_of_checkKey hkey1 ho
        · exact h.idle_of_checkKey hkey2 ho
      have ha : a ≠ 0 := by
        rintro rfl
        rw [h.null] at ho
        cases ho
      refine ⟨s, .inl ⟨rfl, ha, hkey⟩, ?_⟩
      rintro b (⟨hb, -⟩ | href)
      · exact hb
      · exact absurd href (h.idle a o ho hidle b)
    · simp only [hkey, and_false, false_or]
      refine h.busy a o ho ?_
      rw [not_or] at hkey
      simpa [TeeObj.marked, Ne.symm hkey.1, Ne.symm hkey.2] using hbusy
  case idle =>
    intro a o' ho' hidle b
    rw [register_object, mem_def, map_eq_some_iff] at ho'
    obtain ⟨o, ho, rfl⟩ := ho'
    simp only [TeeObj.marked, Bool.or_eq_false_iff, decide_eq_false_iff_not] at hidle
    obtain ⟨⟨hidle, h1⟩, h2⟩ := hidle
    rw [register_refers hunused]
    rintro (⟨-, -, hkey⟩ | href)
    · exact hkey.elim (fun hkey => h1 hkey.symm) fun hkey => h2 hkey.symm
    · exact h.idle a o ho hidle b href

lemma Registered.move (h : Registered cfg w) (hmove : Move cfg w c w') (hkeeps : KeepsBusy w c) :
    Registered cfg w' := by
  cases hmove with
  | stay => exact h
  | add a o hunused hidle => exact h.add hunused hidle
  | discard => exact h.discard
  | close a hclose => exact h.close (hclose.elim id (hkeeps a))
  | change a o o' ho hnumber hbusy htype _ => exact h.change ho hnumber hbusy htype
  | register s copied algo mode key1 key2 ctx o1 o2 _ hunused hkey1 hkey2 => exact h.register hunused hkey1 hkey2
  | free s cs hs => exact h.free hs
  | update s cs initialized hs => exact h.update hs initialized

lemma Untouched.keep (h : Untouched w key reg)
    (hkeep : ∀ o' ∈ w'.objects key, ∃ o ∈ w.objects key, o'.info = o.info ∧ o'.version = o.version) :
    Untouched w' key reg := by
  intro r hr o' ho'
  obtain ⟨o, ho, hinfo, hversion⟩ := hkeep o' ho'
  obtain ⟨hinfo', hversion'⟩ := h r hr o ho
  exact ⟨hinfo.trans hinfo', hversion.trans hversion'⟩

lemma Untouched.of_busy (h : Untouched w key reg) (hresolves : Resolves cfg w cs key reg)
    (hbusy : ∀ o ∈ w.objects key, o.busy = true)
    (hkeep : ∀ o ∈ w.objects key, o.busy = true → ∀ o' ∈ w'.objects key, o'.info = o.info ∧ o'.version = o.version) :
    Untouched w' key reg := by
  intro r hr o' ho'
  cases hr
  obtain ⟨-, o, ho, -⟩ := hresolves
  obtain ⟨hinfo, hversion⟩ := hkeep o ho (hbusy o ho) o' ho'
  obtain ⟨hinfo', hversion'⟩ := h r rfl o ho
  exact ⟨hinfo.trans hinfo', hversion.trans hversion'⟩

lemma Registered.busy_of_refers (h : Registered cfg w) (href : ∀ o ∈ w.objects key, w.Refers s key) :
    ∀ o ∈ w.objects key, o.busy = true := by
  intro o ho
  obtain ⟨o', ho', hbusy⟩ := h.object (href o ho)
  cases ho.symm.trans ho'
  exact hbusy

lemma Unchanged.of_objects (hu : Unchanged w) (h : Registered cfg w) (hstates : w'.states = w.states)
    (hkeep : ∀ a, ∀ o ∈ w.objects a, o.busy = true → ∀ o' ∈ w'.objects a, o'.info = o.info ∧ o'.version = o.version) :
    Unchanged w' := by
  intro s cs hs
  rw [hstates] at hs
  obtain ⟨h1, h2⟩ := hu s cs hs
  exact ⟨h1.of_busy (h.key1 s cs hs) (h.busy_of_refers fun _ ho => h.refers_key1 hs ho) (hkeep _),
    h2.of_busy (h.key2 s cs hs) (h.busy_of_refers fun _ ho => h.refers_key2 hs ho) (hkeep _)⟩

lemma untouched_of_checkKey {algo : UInt32} {mode : Mode} {key1 key2 : ℕ} {o1 o2 : Option TeeObj}
    (hkey : checkKey cfg w algo mode key = .ok reg) :
    Untouched (register (w.setState s cs) s cs key1 key2 o1 o2) key reg := by
  obtain ⟨-, rfl⟩ | ⟨o, -, ho, rfl, -, -⟩ := checkKey_spec hkey
  · intro r hr
    cases hr
  · rintro r ⟨⟩ o' ho'
    rw [register_object, ho] at ho'
    cases ho'
    exact ⟨rfl, rfl⟩

lemma Unchanged.move (hu : Unchanged w) (h : Registered cfg w) (hmove : Move cfg w c w') (hleaves : LeavesBusy w c) :
    Unchanged w' := by
  cases hmove with
  | stay => exact hu
  | add a o hunused _ =>
    refine hu.of_objects h rfl fun b p hp _ p' hp' => ?_
    have hb : b ≠ a := by
      rintro rfl
      rw [isNone_iff_eq_none.mp hunused.2.1] at hp
      cases hp
    cases hp.symm.trans ((setObj_other w o hb).symm.trans hp')
    exact ⟨rfl, rfl⟩
  | discard =>
    refine hu.of_objects h rfl fun b p hp _ p' hp' => ?_
    cases hp.symm.trans hp'
    exact ⟨rfl, rfl⟩
  | close a _ =>
    refine hu.of_objects h rfl fun b p hp _ p' hp' => ?_
    cases hp.symm.trans (close_eq_some.mp hp').2
    exact ⟨rfl, rfl⟩
  | change a o o' ho _ _ _ hsame =>
    refine hu.of_objects h rfl fun b p hp hbusy p' hp' => ?_
    obtain rfl | hb := eq_or_ne b a
    · cases ho.symm.trans hp
      cases (setObj_self w b o').symm.trans hp'
      refine hsame.elim id fun hwrites => ?_
      rw [hleaves b hwrites o ho] at hbusy
      cases hbusy
    · cases hp.symm.trans ((setObj_other w o' hb).symm.trans hp')
      exact ⟨rfl, rfl⟩
  | register s copied algo mode key1 key2 ctx o1 o2 _ hunused hkey1 hkey2 =>
    intro b cs hcs
    obtain ⟨-, rfl⟩ | ⟨-, hcs⟩ := register_state.mp hcs
    · exact ⟨untouched_of_checkKey hkey1, untouched_of_checkKey hkey2⟩
    have hkeep : ∀ key, ∀ o' ∈ (register (w.setState s (.new algo mode)) s (.new algo mode) key1 key2 o1 o2).objects
        key, ∃ o ∈ w.objects key, o'.info = o.info ∧ o'.version = o.version := by
      intro key o' ho'
      rw [register_object, mem_def, map_eq_some_iff] at ho'
      obtain ⟨o, ho, rfl⟩ := ho'
      exact ⟨o, ho, rfl, rfl⟩
    exact ⟨(hu b cs hcs).1.keep (hkeep _), (hu b cs hcs).2.keep (hkeep _)⟩
  | free s cs hs =>
    intro b cs' hcs'
    obtain ⟨-, hcs'⟩ := freeState_state.mp hcs'
    exact ⟨(hu b cs' hcs').1.keep fun o ho => ⟨o, (freeState_object.mp ho).2.2, rfl, rfl⟩,
      (hu b cs' hcs').2.keep fun o ho => ⟨o, (freeState_object.mp ho).2.2, rfl, rfl⟩⟩
  | update s cs initialized hs =>
    intro b cs' hcs'
    obtain ⟨rfl, rfl⟩ | ⟨-, hcs'⟩ := setState_eq_some.mp hcs'
    · exact hu b cs hs
    · exact hu b cs' hcs'

variable {required : UInt32 → Mode → UInt32}

lemma UsageAccepted.move (h : UsageAccepted required w) (hmove : Move cfg w c w') (hchecks : ChecksUsage required w c) :
    UsageAccepted required w' := by
  cases hmove with
  | stay | add | discard | close | change => exact h
  | register s copied algo mode key1 key2 ctx o1 o2 hc _ hkey1 hkey2 =>
    intro b cs hcs r hr
    obtain ⟨-, rfl⟩ | ⟨-, hcs⟩ := register_state.mp hcs
    · rw [hc] at hchecks
      obtain hr | hr := hr
      · obtain ⟨-, rfl⟩ | ⟨o, -, ho, rfl, -, -⟩ := checkKey_spec hkey1
        · cases hr
        · cases hr
          exact hchecks key1 List.mem_cons_self r ho
      · obtain ⟨-, rfl⟩ | ⟨o, -, ho, rfl, -, -⟩ := checkKey_spec hkey2
        · cases hr
        · cases hr
          exact hchecks key2 (List.mem_cons_of_mem _ List.mem_cons_self) r ho
    · exact h b cs hcs r hr
  | free s cs hs => exact fun b cs' hcs' => h b cs' (freeState_state.mp hcs').2
  | update s cs initialized hs =>
    intro b cs' hcs'
    obtain ⟨rfl, rfl⟩ | ⟨-, hcs'⟩ := setState_eq_some.mp hcs'
    · exact h b cs hs
    · exact h b cs' hcs'

lemma registered_init (cfg : Config) : Registered cfg .init := by
  constructor
  case null => rfl
  all_goals
    intro a o ho
    cases ho

theorem run_keys (cfg : Config) (required : UInt32 → Mode → UInt32) (calls : List Call)
    (hkeeps : Along (step cfg) KeepsBusy .init calls) :
    ∃ w, run (step cfg) .init calls = .ok w ∧ Registered cfg w ∧
      (Along (step cfg) LeavesBusy .init calls → Unchanged w) ∧
      (Along (step cfg) (ChecksUsage required) .init calls → UsageAccepted required w) := by
  obtain ⟨w, hrun, hreg⟩ := hkeeps.completes (registered_init cfg) fun w c h hk =>
    ⟨_, rfl, h.move (call_move h.null c) hk⟩
  refine ⟨w, hrun, hreg, fun hleaves => ?_, fun hchecks => ?_⟩
  · refine ((hkeeps.and hleaves).invariant (I := fun w => Registered cfg w ∧ Unchanged w) hrun
      ⟨registered_init cfg, fun s cs hcs => by cases hcs⟩ ?_).2
    rintro w c _ ⟨h, hu⟩ ⟨hk, hl⟩ ⟨⟩
    exact ⟨h.move (call_move h.null c) hk, hu.move h (call_move h.null c) hl⟩
  · refine ((hkeeps.and hchecks).invariant (I := fun w => Registered cfg w ∧ UsageAccepted required w) hrun
      ⟨registered_init cfg, fun s cs hcs => by cases hcs⟩ ?_).2
    rintro w c _ ⟨h, hu⟩ ⟨hk, hc⟩ ⟨⟩
    exact ⟨h.move (call_move h.null c) hk, hu.move (call_move h.null c) hc⟩

def plain : Config := ⟨⟨false, false, false, false, 4096⟩, false, false⟩

def calmly : Env := ⟨true, true, fun _ => true, true, fun _ => 0⟩

def aesKey : Attribute := ⟨.secretValue, 0, List.replicate 16 1⟩

def needsEncrypt (_ : UInt32) (mode : Mode) : UInt32 := if mode = .encrypt then 2 else 0

def aesEcb : UInt32 := 0x10000010

def encrypting : List Call :=
  [.objAlloc calmly 1 true .aes 128, .objPopulate calmly 1 [aesKey],
    .crypStateAlloc 2 true aesEcb .encrypt 1 0 (.ok ())]

theorem run_keys_encrypting :
    ∃ w, run (step plain) .init (encrypting ++ [.objClose 1, .cipherInit 2 (.ok ())]) = .ok w ∧
      (w.objects 1).map (·.busy) = some true ∧ (w.states 2).map (·.initialized) = some true ∧ Registered plain w ∧
      Unchanged w ∧ UsageAccepted needsEncrypt w := by
  obtain ⟨w, hrun, hreg, hunchanged, husage⟩ := run_keys plain needsEncrypt
    (encrypting ++ [.objClose 1, .cipherInit 2 (.ok ())]) (by decide)
  refine ⟨w, hrun, ?_, ?_, hreg, hunchanged (by decide), husage (by decide)⟩
  all_goals
    cases hrun
    decide

def recycling : List Call :=
  [.storageObjOpen calmly 1 true ⟨true, true, true⟩ (.ok (⟨.aes, 128, 128, true, true, [.secretValue],
      fun _ => .data 128⟩, usageDefault)),
    .crypStateAlloc 2 true aesEcb .encrypt 1 0 (.ok ()), .storageObjDel 1 (.ok ()),
    .objAlloc calmly 1 true .rsaKeypair 2048]

theorem keys_exchanged :
    (∃ w, run (step plain) .init recycling = .ok w ∧ ¬Registered plain w) ∧
    (∃ w, run (step plain) .init (encrypting ++ [.objReset 1, .objPopulate calmly 1 [aesKey]]) = .ok w ∧
      ¬Unchanged w) ∧
    ∃ w, run (step plain) .init (.objAlloc calmly 1 true .aes 128 :: .objRestrictUsage 1 0 :: encrypting.tail) =
      .ok w ∧ ¬UsageAccepted needsEncrypt w := by
  refine ⟨⟨_, rfl, fun h => ?_⟩, ⟨_, rfl, fun h => ?_⟩, _, rfl, fun h => ?_⟩
  · obtain ⟨-, o, ho, hnumber, -⟩ := h.key1 2 _ rfl
    cases ho
    cases hnumber
  · cases ((h 2 _ rfl).1 _ rfl _ rfl).2
  · exact absurd (h 2 _ rfl _ (.inl rfl)) (by decide)

end Optee.Cryp.States
