import Optee.Pkcs11.Pins

/-! Who can replace the credential of the security officer by initialising the token again. -/

namespace Optee.Pkcs11

open Lib.ByteStrings Lib.Effects Option

def Db.storedMain (w : Db) : Main := Main.decode (w.file.getD [])

def Main.soMethod (m : Main) : Bool × UInt32 × Bytes 64 :=
  (m.has .protectedAuthenticationPath, m.so.pinSalt, m.so.auth)

def Authenticated (cfg : Config) (env : Env) (pin : Pin) (m : Main) : Prop :=
  if m.has .protectedAuthenticationPath then verifyIdentityAuth env .so m = .ok ()
  else verifyPin cfg env .so pin m.so = .ok ()

structure Initialized (cfg : Config) (m : Main) : Prop where
  initialized : m.has .tokenInitialized = true
  byIdentity : m.has .protectedAuthenticationPath = true → cfg.authTeeIdentity = true ∧ m.so.pinSalt = 0
  byPin : m.has .protectedAuthenticationPath = false → m.so.pinSalt ≠ 0

def CopyOf (stored m : Main) : Prop :=
  m = stored ∨ stored.has .protectedAuthenticationPath = true ∧ m = stored.lower [.protectedAuthenticationPath]

structure Unguarded (cfg : Config) (env : Env) (sessionExists : Bool) (pin : Pin) (stored m : Main) : Prop where
  unlocked : m.has (.pinLocked .so) = false
  alone : sessionExists = false
  enabled : cfg.authTeeIdentity = true
  methodless : m.has .protectedAuthenticationPath = false
  stranger : ¬Authenticated cfg env pin stored
  goes : pin = [] ∧ env.identity.isSome ∨
    stored.has .protectedAuthenticationPath = true ∧ pin ≠ [] ∧ PinSizeOk pin ∧ env.hashError = none

section Heads

variable {φ : Faults} {α : Type} {m : Main} {I : Db → Prop}

lemma Heads.storedMain {w : Db} (h : Heads m w) : w.storedMain = m := by
  obtain ⟨tail, hfile⟩ := h
  rw [Db.storedMain, hfile, getD_some, m.decode_encode]

variable {f : Db → TeeResult (α × Db)}

lemma attempt_invariant (htick : ∀ w, I w → I w.tick) (hf : ∀ w a t, I w → f w = .ok (a, t) → I t) :
    Invariant I (attempt (operation φ f)) := by
  intro w hw
  match h : φ w.requests with
  | some .reset =>
    rw [attempt_reset h]
    exact htick w hw
  | some (.fails e) =>
    rw [attempt_fails h]
    exact htick w hw
  | none =>
    cases hop : f w.tick with
    | error e =>
      rw [attempt_refused h hop]
      exact htick w hw
    | ok x =>
      rw [attempt_ok h hop]
      exact hf _ _ _ (htick w hw) hop

lemma onRc_invariant {p : DbM α} {q : Rc → DbM α} (hp : Invariant I p) (hq : ∀ r, Invariant I (q r)) :
    Invariant I (onRc p q) := by
  intro w hw
  have hends := hp w hw
  unfold onRc
  cases hrun : p w with
  | ok a t =>
    rw [hrun] at hends
    exact hends
  | error s t =>
    rw [hrun] at hends
    cases s with
    | rc r => exact hq r t hends
    | tee e | panic | reset => exact hends

lemma Heads.relisted {w : Db} (h : Heads m w) (objs : List Uuid) : Heads m (w.write (relisted w.file objs)) := by
  obtain ⟨tail, hfile⟩ := h
  refine ⟨encodeObjs objs ++ tail.drop (encodeObjs objs).length, ?_⟩
  change some (Pkcs11.relisted w.file objs) = _
  rw [Pkcs11.relisted, hfile, getD_some, patch_append m.encode_length]

lemma unregister_heads (uuid : Uuid) : Invariant (Heads m) (unregisterPersistentObject φ uuid) := by
  intro w hw
  by_cases hmem : uuid ∈ w.dbObjs
  · have hsome : w.file.isSome := by
      obtain ⟨tail, hfile⟩ := hw
      rw [hfile]
      rfl
    rw [unregister_eq hmem hsome]
    split
    · exact hw
    · exact hw
    · exact hw
    · exact hw
    · exact hw.relisted _
  · rw [unregister_missing hmem]
    exact hw

lemma cleanup_heads (uuid : Uuid) : Invariant (Heads m) (cleanupPersistentObject φ uuid) := by
  refine (attempt_invariant (fun _ h => h) ?_).bind fun res => ?_
  · intro w a t hw hf
    split_ifs at hf
    cases hf
    exact hw
  · cases res with
    | ok _ =>
      refine (attempt_invariant (fun _ h => h) ?_).bind fun _ => .pure _
      intro w a t hw hf
      cases hf
      exact hw
    | error e => exact .pure _

lemma destroy_heads (uuid : Uuid) : Invariant (Heads m) (destroyPersistentObject φ uuid) := by
  have hunregister : Invariant (Heads m) (unregisterOrPanic φ uuid) :=
    onRc_invariant (unregister_heads uuid) fun _ => onRc_invariant (unregister_heads uuid) fun _ => .throw _
  exact hunregister.bind fun _ => cleanup_heads uuid

end Heads

variable {r : Rc}

section Stored

variable {cfg : Config} {env : Env} {sessionExists : Bool} {label : Bytes 32} {pin : Pin} {uuids : List Uuid} {w : Db}
  {stored m : Main}

lemma final_of_invariant {α : Type} {I : Db → Prop} {p : DbM α} (h : Invariant I p) {w : Db} (hw : I w) :
    I (final (p w)) := by
  have hends := h w hw
  cases hrun : p w with
  | ok a t | error s t =>
    rw [hrun] at hends
    exact hends

lemma update_heads (h : Heads stored w) : ∃ t, updatePersistentDb noFaults w = .ok () t ∧ Heads w.dbMain t := by
  obtain ⟨tail, hfile⟩ := h
  exact ⟨_, updatePersistentDb_eq hfile, tail, rfl⟩

lemma storedMain_tokenInitialize (h : Heads stored w) :
    (final (tokenInitialize cfg noFaults env sessionExists label pin uuids w)).storedMain =
      match authenticate cfg env sessionExists pin w.dbMain with
      | .refused _ _ => stored
      | .wrongPin m => m.wrongTry .so
      | .admitted m => m.initialized label := by
  rw [tokenInitialize, bind_get]
  cases authenticate cfg env sessionExists pin w.dbMain with
  | refused r m => exact h.storedMain
  | wrongPin m =>
    obtain ⟨t, ht, hheads⟩ := update_heads (w := { w with dbMain := m.wrongTry .so, history := [.wrong .so] ++ w.history }) h
    simp only
    rw [setMain_bind, bind_of_ok ht]
    exact hheads.storedMain
  | admitted m =>
    obtain ⟨t, ht, hheads⟩ := update_heads
      (w := { w with dbMain := m.initialized label, history := [.cleared .user, .cleared .so] ++ w.history }) h
    simp only
    rw [setMain_bind, bind_of_ok ht]
    exact (final_of_invariant (Invariant.forM uuids fun uuid => destroy_heads uuid) hheads).storedMain

@[simp] lemma Main.so_lower (fs : List Flag) : (m.lower fs).so = m.so := rfl

@[simp] lemma soMethod_wrongTry : (m.wrongTry .so).soMethod = m.soMethod := by
  simp only [Main.wrongTry]
  split_ifs <;> simp [Main.soMethod, Main.setCred, Main.cred, Main.has, Main.raise]

@[simp] lemma soMethod_initialized (label : Bytes 32) : (m.initialized label).soMethod = m.soMethod := by
  simp [Main.soMethod, Main.initialized, Main.setCred, Main.has, Main.raise, Main.lower, tryFlags]

def Verdict.Replaces (stored : Main) : Verdict → Prop
  | .refused _ _ => False
  | .wrongPin m => m.soMethod ≠ stored.soMethod
  | .admitted m => m.soMethod ≠ stored.soMethod

lemma soMethod_tokenInitialize_ne (h : Heads stored w) :
    (final (tokenInitialize cfg noFaults env sessionExists label pin uuids w)).storedMain.soMethod ≠ stored.soMethod ↔
      (authenticate cfg env sessionExists pin w.dbMain).Replaces stored := by
  rw [storedMain_tokenInitialize h]
  cases authenticate cfg env sessionExists pin w.dbMain with
  | refused r m => exact ⟨fun hne => hne rfl, False.elim⟩
  | wrongPin m => rw [soMethod_wrongTry, Verdict.Replaces]
  | admitted m => rw [soMethod_initialized, Verdict.Replaces]

lemma not_replaces_of_salt (hsalt : m.so.pinSalt ≠ 0) (hm : m.soMethod = stored.soMethod) :
    ¬(authenticateByPin cfg env pin m).Replaces stored := by
  unfold authenticateByPin
  rw [if_neg hsalt]
  split
  · exact fun hne => hne hm
  · exact fun hne => hne hm
  · exact id

lemma replaces_of_salt_zero (hsalt : m.so.pinSalt = 0) (hstored : stored.so.pinSalt = 0) :
    (authenticateByPin cfg env pin m).Replaces stored ↔ PinSizeOk pin ∧ env.hashError = none := by
  unfold authenticateByPin
  rw [if_pos hsalt]
  by_cases hsize : PinSizeOk pin
  · rw [if_neg (not_not_intro hsize)]
    cases herr : env.hashError with
    | some e => simp [hashPin, doHash, herr, Verdict.Replaces]
    | none =>
      simp only [hashPin, doHash, herr, Verdict.Replaces, hsize, and_self, iff_true]
      intro heq
      have hnew := congrArg (fun x => x.2.1) heq
      simp only [Main.soMethod, Main.setCred, hstored] at hnew
      split_ifs at hnew with hzero
      · exact absurd hnew (by decide)
      · exact hzero hnew
  · simp [Verdict.Replaces, hsize]

lemma identity_setIdentity (c : Credential) (id : Identity) : (c.setIdentity id).identity = id.toList := by
  exact List.take_left' id.toList_length

lemma Authenticated.of_protected (h : stored.has .protectedAuthenticationPath = true) :
    Authenticated cfg env pin stored ↔ ∃ id, env.identity = some id ∧ id.toList = stored.so.identity := by
  rw [Authenticated, if_pos h, verifyIdentityAuth]
  cases env.identity with
  | none => simp
  | some id =>
    simp only [Main.cred, Option.some.injEq, exists_eq_left']
    split_ifs with hid <;> simp [hid]

lemma replaces_of_no_pin (hauth : ¬Authenticated cfg env [] stored) :
    (authenticateBySetup cfg env [] m).Replaces stored ↔ env.identity.isSome := by
  unfold authenticateBySetup setupSoIdentityAuthFromClient
  cases hid : env.identity with
  | none => simp [Verdict.Replaces]
  | some id =>
    simp only [isSome_some, iff_true, Verdict.Replaces]
    intro heq
    have hflag := congrArg Prod.fst heq
    have hcred := congrArg (fun x => x.2.2) heq
    simp only [Main.soMethod, Main.has_raise, Main.has_setCred, List.mem_singleton, decide_true, Bool.or_true] at hflag
    rw [Authenticated.of_protected hflag.symm] at hauth
    refine hauth ⟨id, hid, ?_⟩
    have hsame : (m.so.setIdentity id).auth = stored.so.auth := hcred
    rw [← identity_setIdentity m.so id, Credential.identity, hsame]
    rfl

lemma not_replaces_setup (hpin : pin ≠ []) (hm : m = stored) (hsalt : stored.so.pinSalt ≠ 0)
    (hflag : stored.has .protectedAuthenticationPath = false) :
    ¬(authenticateBySetup cfg env pin m).Replaces stored := by
  unfold authenticateBySetup
  rw [if_neg hpin]
  refine not_replaces_of_salt (hm ▸ hsalt) ?_
  simp [Main.soMethod, hm, hflag]

lemma replaces_setup (hinit : Initialized cfg stored) (hcopy : CopyOf stored m)
    (hflag : m.has .protectedAuthenticationPath = false) (hauth : ¬Authenticated cfg env pin stored) :
    (authenticateBySetup cfg env pin m).Replaces stored ↔ pin = [] ∧ env.identity.isSome ∨
      stored.has .protectedAuthenticationPath = true ∧ pin ≠ [] ∧ PinSizeOk pin ∧ env.hashError = none := by
  by_cases hpin : pin = []
  · subst hpin
    rw [replaces_of_no_pin hauth]
    simp
  rcases hcopy with rfl | ⟨hstored, rfl⟩
  · have hnot : ¬(authenticateBySetup cfg env pin _).Replaces _ :=
      not_replaces_setup hpin rfl (hinit.byPin hflag) hflag
    simp [hnot, hpin, hflag]
  · have hsalt := (hinit.byIdentity hstored).2
    rw [authenticateBySetup, if_neg hpin, replaces_of_salt_zero (by simpa using hsalt) hsalt]
    simp [hpin, hstored]

lemma replaces_iff_unguarded (hinit : Initialized cfg stored) (hcopy : CopyOf stored m)
    (hauth : ¬Authenticated cfg env pin stored) :
    (authenticate cfg env sessionExists pin m).Replaces stored ↔ Unguarded cfg env sessionExists pin stored m := by
  unfold authenticate
  by_cases hlock : m.has (.pinLocked .so) = true
  · rw [if_pos hlock]
    exact iff_of_false id fun h => by simp [h.unlocked] at hlock
  rw [if_neg hlock]
  cases sessionExists with
  | true => exact iff_of_false id fun h => by cases h.alone
  | false =>
    rw [if_neg (by decide)]
    by_cases hcfg : cfg.authTeeIdentity = true
    · rw [if_neg (not_not_intro hcfg)]
      cases hflag : m.has .protectedAuthenticationPath with
      | true =>
        -- the flag is there, so that the copy is the stored record and the identity is compared
        have hm : m = stored := by
          rcases hcopy with rfl | ⟨-, rfl⟩
          · rfl
          · simp at hflag
        rw [hm] at hflag ⊢
        rw [Authenticated, if_pos hflag] at hauth
        rw [if_pos rfl]
        refine iff_of_false ?_ fun h => by simp [h.methodless] at hflag
        split
        · exact id
        · exact absurd ‹_› hauth
      | false =>
        rw [if_neg (by decide), replaces_setup hinit hcopy hflag hauth]
        exact ⟨fun h => ⟨by simpa using hlock, rfl, hcfg, hflag, hauth, h⟩, fun h => h.goes⟩
    · rw [if_pos hcfg]
      have hflag : stored.has .protectedAuthenticationPath = false := by
        by_contra hne
        exact hcfg (hinit.byIdentity (by simpa using hne)).1
      have hm : m = stored := by
        rcases hcopy with rfl | ⟨htrue, -⟩
        · rfl
        · simp [hflag] at htrue
      refine iff_of_false (not_replaces_of_salt (hm ▸ hinit.byPin hflag) (by rw [hm])) fun h => hcfg h.enabled

variable {m' : Main}

theorem so_credential_only_replaced_by_so (hw : Heads stored w) (hinit : Initialized cfg stored)
    (hcopy : CopyOf stored w.dbMain) :
    ((final (tokenInitialize cfg noFaults env sessionExists label pin uuids w)).storedMain.soMethod ≠ stored.soMethod →
      Authenticated cfg env pin stored) ↔ ¬Unguarded cfg env sessionExists pin stored w.dbMain := by
  rw [soMethod_tokenInitialize_ne hw]
  by_cases hauth : Authenticated cfg env pin stored
  · exact iff_of_true (fun _ => hauth) fun h => h.stranger hauth
  · rw [imp_iff_not hauth, replaces_iff_unguarded hinit hcopy hauth]

end Stored

/-! A token with the PIN "0000" of its officer, and one with an identity. -/

def toyConfig : Config where
  authTeeIdentity := true
  digest _ salt pin := ⟨resize (leBytes 4 salt.toNat ++ pin) 64, resize_length _ _⟩
  parseAcl _ := none

def toyEnv (identity : Identity) : Env := ⟨some identity, 5, none, none⟩

def toyLabel : Bytes 32 := zeroBytes 32

def pinToken : Main :=
  (freshMain.setCred .so ⟨0, 1, toyConfig.digest .so 1 [48, 48, 48, 48]⟩).initialized toyLabel

def identityToken : Main :=
  ((freshMain.setCred .so (freshMain.so.setIdentity (zeroBytes 20))).raise [.protectedAuthenticationPath]).initialized
    toyLabel

def tokenOf (m : Main) : Db := ⟨m, [], some (m.encode ++ encodeObjs []), [], 0, 0, []⟩

lemma tokenOf_heads (stored m : Main) : Heads stored { tokenOf stored with dbMain := m } := ⟨_, rfl⟩

def stranger : Identity := List.Vector.replicate 20 1

lemma not_authenticated_of_pin {cfg : Config} {env : Env} {pin : Pin} {m : Main}
    (hflag : m.has .protectedAuthenticationPath = false) (herr : env.verifyError = none)
    (hhash : cfg.digest .so m.so.pinSalt pin ≠ m.so.auth) : ¬Authenticated cfg env pin m := by
  rw [Authenticated, if_neg (by simp [hflag])]
  simp [verifyPin, doHash, herr, hhash]

theorem so_credential_kept_without_its_pin :
    (final (tokenInitialize toyConfig noFaults (toyEnv stranger) false toyLabel [49, 49, 49, 49] []
      (tokenOf pinToken))).storedMain.soMethod = pinToken.soMethod := by
  have hnot : ¬Authenticated toyConfig (toyEnv stranger) [49, 49, 49, 49] pinToken :=
    not_authenticated_of_pin (by decide) rfl (by decide +kernel)
  by_contra hne
  exact hnot ((so_credential_only_replaced_by_so (tokenOf_heads pinToken pinToken) ⟨by decide, fun h => absurd h (by decide), fun _ => by decide⟩ (.inl rfl)).mpr
    (fun h => h.goes.elim (fun hpin => absurd hpin.1 (by decide)) fun hflag => absurd hflag.1 (by decide)) hne)

instance (stored : Main) : (v : Verdict) → Decidable (v.Replaces stored)
  | .refused _ _ => isFalse id
  | .wrongPin m => inferInstanceAs (Decidable (m.soMethod ≠ stored.soMethod))
  | .admitted m => inferInstanceAs (Decidable (m.soMethod ≠ stored.soMethod))

lemma tokenInitialize_refused {cfg : Config} {φ : Faults} {env : Env} {sessionExists : Bool} {label : Bytes 32}
    {pin : Pin} {uuids : List Uuid} {w : Db} {m : Main}
    (h : authenticate cfg env sessionExists pin w.dbMain = .refused r m) :
    tokenInitialize cfg φ env sessionExists label pin uuids w = .error (.rc r) { w with dbMain := m } := by
  rw [tokenInitialize, bind_get, h]
  rfl

theorem so_credential_taken_over :
    ((final (tokenInitialize toyConfig noFaults (toyEnv stranger) false toyLabel [] [] (tokenOf pinToken))).storedMain.soMethod ≠
        pinToken.soMethod ∧ ¬Authenticated toyConfig (toyEnv stranger) [] pinToken) ∧
    ∃ r w, tokenInitialize toyConfig noFaults (toyEnv (zeroBytes 20)) false toyLabel [48] [] (tokenOf identityToken) =
        .error (.rc r) w ∧
      (final (tokenInitialize toyConfig noFaults (toyEnv stranger) false toyLabel [49, 49, 49, 49] [] w)).storedMain.soMethod ≠
        identityToken.soMethod ∧ ¬Authenticated toyConfig (toyEnv stranger) [49, 49, 49, 49] identityToken := by
  refine ⟨⟨?_, ?_⟩, .argumentsBad,
    { tokenOf identityToken with dbMain := identityToken.lower [.protectedAuthenticationPath] }, ?_, ?_, ?_⟩
  · exact (soMethod_tokenInitialize_ne (tokenOf_heads pinToken pinToken)).mpr (by decide +kernel)
  · exact not_authenticated_of_pin (by decide) rfl (by decide +kernel)
  · exact tokenInitialize_refused (by decide +kernel)
  · exact (soMethod_tokenInitialize_ne (tokenOf_heads identityToken _)).mpr (by decide +kernel)
  · rw [Authenticated.of_protected (by decide)]
    rintro ⟨id, hid, heq⟩
    cases hid
    revert heq
    decide

end Optee.Pkcs11
