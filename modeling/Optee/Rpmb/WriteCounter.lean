import Optee.Rpmb.Frames

/-! The write counter that the requests of one authenticated write carry. -/

namespace Optee.Rpmb

open Lib.ByteStrings List Option TeeResult

structure WriteCall where
  blkIdx : UInt16
  dataBlks : List UInt8
  blkcnt : UInt16
  fek : Option (Bytes 16)
  uuid : Option Uuid
  -- sizes of the buffers shared with the normal world
  memReqSize : ℕ
  memRespSize : ℕ

structure Attempt where
  packFault : Option TeeError
  invoke : TeeResult Response

structure WriteRun where
  res : TeeResult Unit
  ctx : Ctx
  dead : Bool
  emitted : List (List Frame)
  accepted : Option Response

variable (K : Crypto) (call : WriteCall) (env : ℕ → Attempt)

def WriteCall.request (call : WriteCall) (wrCnt : UInt32) : RawData :=
  ⟨reqAuthDataWrite, some call.blkcnt, some call.blkIdx, some wrCnt, none, some (zeroBytes 32), some call.dataBlks, 0, 0⟩

def WriteCall.response (call : WriteCall) (wrCnt : UInt32) : RawData :=
  ⟨respAuthDataWrite, some call.blkcnt, some call.blkIdx, some wrCnt, none, some (zeroBytes 32), none, 0, 0⟩

def packWrite (ctx : Ctx) (wrCnt : UInt32) (fault : Option TeeError) : TeeResult (List Frame) :=
  reqPack K ctx (call.request wrCnt) call.blkcnt.toNat call.fek call.uuid fault

def verifyWrite (ctx : Ctx) (wrCnt : UInt32) (resp : Response) : Verdict :=
  respUnpackVerify K ctx (call.response wrCnt) resp none none

def writeReqLoop : (left retryCount : ℕ) → Ctx → UInt32 → WriteRun
  | 0, _, ctx, _ => ⟨.error .communication, ctx, true, [], none⟩
  | left + 1, retryCount, ctx, wrCnt =>
    match packWrite K call ctx wrCnt (env retryCount).packFault with
    | .error e =>
      -- nothing has been sent yet, so the call may simply fail
      if retryCount = 0 then ⟨.error e, ctx, false, [], none⟩
      else writeReqLoop left (retryCount + 1) ctx wrCnt
    | .ok req =>
      let unsynced := fun ctx : Ctx => if left = 0 then ctx else { ctx with wrCntSynced := false }
      match (env retryCount).invoke with
      | .error _ =>
        let rest := writeReqLoop left (retryCount + 1) (unsynced ctx) wrCnt
        { rest with emitted := req :: rest.emitted }
      | .ok resp =>
        let verdict := verifyWrite K call ctx wrCnt resp
        match verdict.res with
        | .ok _ => ⟨.ok (), verdict.ctx, false, [req], some resp⟩
        | .error _ =>
          let rest := writeReqLoop left (retryCount + 1) (unsynced verdict.ctx) (verdict.writeCounter.getD wrCnt)
          { rest with emitted := req :: rest.emitted }

def writeReq (ctx : Ctx) : WriteRun :=
  if call.memReqSize ≤ reqSize + call.blkcnt.toNat * dataFrameSize ∧ call.memRespSize ≤ dataFrameSize then
    writeReqLoop K call env maxRetries 0 ctx ctx.wrCnt
  else ⟨.error .panic, ctx, false, [], none⟩

def Checked (resp : Response) (last : Frame) : Prop :=
  resp.frames.getLast? = some last ∧ last.opResult &&& resultMask = resultOk ∧ last.msgType = respAuthDataWrite ∧
    last.address = call.blkIdx

def MacOk (key : Bytes 32) (resp : Response) (last : Frame) : Prop :=
  resp.frames.length = 1 ∧ resp.fault = none ∧ macCalc K key [last] = resp.keyMac

def Ctx.device (ctx : Ctx) : Bytes 32 × UInt16 × UInt16 := (ctx.key, ctx.maxBlkIdx, ctx.relWrBlkcnt)

def Packable (ctx : Ctx) : Prop :=
  call.blkcnt ≠ 0 ∧ call.blkcnt.toNat ≤ ctx.relWrBlkcnt.toNat ∧
    call.blkIdx.toNat + call.blkcnt.toNat - 1 ≤ ctx.maxBlkIdx.toNat ∧
    ∀ i < call.blkcnt.toNat, ∃ data, packData K (call.request 0) call.fek call.uuid i = .ok data

def Disciplined (key : Bytes 32) (w : UInt32) (run : WriteRun) : Prop :=
  (∀ req ∈ run.emitted, ∀ f ∈ req, f.writeCounter = w) ∧
    run.ctx.wrCnt = (if run.accepted.isSome then w + 1 else w) ∧
    ∀ resp, run.accepted = some resp → ∃ last, MacOk K key resp last ∧ resp.frames = [last]

variable {K call env}
variable {ctx : Ctx} {c w : UInt32} {resp : Response} {last : Frame}

lemma setMac_length (mac : Bytes 32) (frames : List Frame) : (setMac mac frames).length = frames.length := by
  fun_induction setMac mac frames with
  | case1 | case2 f => rfl
  | case3 f fs _ ih => simp [ih]

lemma mem_setMac {mac : Bytes 32} {frames : List Frame} {f : Frame} (h : f ∈ setMac mac frames) :
    ∃ f' ∈ frames, f.writeCounter = f'.writeCounter := by
  fun_induction setMac mac frames with
  | case1 => cases h
  | case2 f' =>
    rw [mem_singleton.mp h]
    exact ⟨f', mem_singleton_self f', rfl⟩
  | case3 f' fs _ ih =>
    rcases mem_cons.mp h with rfl | h
    · exact ⟨_, mem_cons_self, rfl⟩
    · obtain ⟨f'', hf'', heq⟩ := ih h
      exact ⟨f'', mem_cons_of_mem _ hf'', heq⟩

lemma exists_packFrame {i : ℕ} : (∃ f, packFrame K ctx (call.request c) call.blkcnt.toNat call.fek call.uuid i = .ok f) ↔
    call.blkIdx.toNat + call.blkcnt.toNat - 1 ≤ ctx.maxBlkIdx.toNat ∧
      ∃ data, packData K (call.request 0) call.fek call.uuid i = .ok data := by
  have hcheck : ((call.request c).blkIdx.any
      (fun idx => decide (idx.toNat + call.blkcnt.toNat - 1 > ctx.maxBlkIdx.toNat)) = true) ↔
      ¬ call.blkIdx.toNat + call.blkcnt.toNat - 1 ≤ ctx.maxBlkIdx.toNat := by
    rw [WriteCall.request, any_some, decide_eq_true_eq, not_le]
  simp only [packFrame, hcheck]
  split_ifs with h
  · simp only [bind_eq_ok, h, true_and]
    constructor
    · rintro ⟨f, data, hdata, -⟩
      exact ⟨data, hdata⟩
    · rintro ⟨data, hdata⟩
      exact ⟨_, data, hdata, rfl⟩
  · simp [h]

variable {fek : Option (Bytes 16)} {uuid : Option Uuid} {fault : Option TeeError} {req : List Frame}

lemma reqPack_frames {raw : RawData} {n : ℕ} (h : reqPack K ctx raw n fek uuid fault = .ok req) :
    n ≠ 0 ∧ (raw.msgType = reqAuthDataWrite → n ≤ ctx.relWrBlkcnt.toNat) ∧ fault = none ∧
      ∃ frames, (List.range n).mapM (packFrame K ctx raw n fek uuid) = .ok frames ∧
      (req = frames ∨ ∃ mac, req = setMac mac frames) := by
  rw [reqPack] at h
  by_cases hzero : n = 0
  · rw [if_pos hzero] at h
    cases h
  rw [if_neg hzero] at h
  by_cases hrel : raw.msgType = reqAuthDataWrite ∧ n > ctx.relWrBlkcnt.toNat
  · rw [if_pos hrel] at h
    cases h
  rw [if_neg hrel, bind_eq_ok] at h
  obtain ⟨frames, hframes, h⟩ := h
  cases fault with
  | some e => cases h
  | none =>
    refine ⟨hzero, fun hmsg => Nat.le_of_not_lt (fun hlt => hrel ⟨hmsg, hlt⟩), rfl, frames, hframes, ?_⟩
    cases hmac : raw.keyMac with
    | none =>
      rw [hmac] at h
      cases h
      exact Or.inl rfl
    | some keyMac =>
      rw [hmac] at h
      cases h
      exact Or.inr ⟨_, rfl⟩

lemma packWrite_ok (h : packWrite K call ctx c fault = .ok req) : req ≠ [] ∧ ∀ f ∈ req, f.writeCounter = c := by
  obtain ⟨hzero, -, -, frames, hframes, hreq⟩ := reqPack_frames h
  have hlen : frames.length = call.blkcnt.toNat := by
    rw [← (mapM_eq_ok.mp hframes).length_eq, length_range]
  have hcnt : ∀ f ∈ frames, f.writeCounter = c := by
    intro f hf
    obtain ⟨i, -, hi⟩ := mapM_mem hframes hf
    rw [packFrame] at hi
    split_ifs at hi
    simp only [bind_eq_ok, pure, Except.pure] at hi
    obtain ⟨data, -, hf⟩ := hi
    cases hf
    rfl
  have hne : frames ≠ [] := by
    rintro rfl
    exact hzero hlen.symm
  rcases hreq with rfl | ⟨mac, rfl⟩
  · exact ⟨hne, hcnt⟩
  refine ⟨fun hnil => ?_, fun f hf => ?_⟩
  · rw [← length_eq_zero_iff, setMac_length, length_eq_zero_iff] at hnil
    exact hne hnil
  · obtain ⟨f', hf', heq⟩ := mem_setMac hf
    rw [heq, hcnt f' hf']

lemma exists_packWrite : (∃ req, packWrite K call ctx c fault = .ok req) ↔ Packable K call ctx ∧ fault = none := by
  constructor
  · rintro ⟨req, h⟩
    obtain ⟨hzero, hrel, hfault, frames, hframes, -⟩ := reqPack_frames h
    have hframe : ∀ i < call.blkcnt.toNat, call.blkIdx.toNat + call.blkcnt.toNat - 1 ≤ ctx.maxBlkIdx.toNat ∧
        ∃ data, packData K (call.request 0) call.fek call.uuid i = .ok data := by
      intro i hi
      exact exists_packFrame.mp (exists_mapM.mp ⟨frames, hframes⟩ i (mem_range.mpr hi))
    refine ⟨⟨?_, hrel rfl, (hframe 0 (by omega)).1, fun i hi => (hframe i hi).2⟩, hfault⟩
    rintro h0
    exact hzero (by rw [h0]; rfl)
  · rintro ⟨⟨hzero, hrel, hmax, hdata⟩, rfl⟩
    have hne : call.blkcnt.toNat ≠ 0 := fun h0 => hzero (UInt16.toNat_inj.mp h0)
    obtain ⟨frames, hframes⟩ : ∃ frames, (List.range call.blkcnt.toNat).mapM
        (packFrame K ctx (call.request c) call.blkcnt.toNat call.fek call.uuid) = .ok frames :=
      exists_mapM.mpr (fun i hi => exists_packFrame.mpr ⟨hmax, hdata i (mem_range.mp hi)⟩)
    refine ⟨setMac (macCalc K ctx.key frames) frames, ?_⟩
    rw [packWrite, reqPack, if_neg hne, if_neg (fun hbig => not_lt.mpr hrel hbig.2), hframes]
    rfl

lemma verifyWrite_unchecked (K : Crypto) (ctx : Ctx) (c : UInt32) (h : ∀ last, ¬ Checked call resp last) :
    ∃ e, verifyWrite K call ctx c resp = ⟨.error e, some c, ctx⟩ := by
  rw [verifyWrite, respUnpackVerify]
  cases hlast : resp.frames.getLast? with
  | none => exact ⟨_, rfl⟩
  | some last =>
    dsimp only
    by_cases hkey : last.opResult &&& resultMask = resultAuthKeyNotProgrammed
    · exact ⟨_, if_pos hkey⟩
    rw [if_neg hkey]
    by_cases hop : last.opResult &&& resultMask ≠ resultOk
    · exact ⟨_, if_pos hop⟩
    rw [if_neg hop]
    by_cases hmsg : last.msgType ≠ (call.response c).msgType
    · exact ⟨_, if_pos hmsg⟩
    rw [if_neg hmsg]
    by_cases haddr : (call.response c).blkIdx.any (fun idx => decide (last.address ≠ idx)) = true
    · exact ⟨_, if_pos haddr⟩
    · refine absurd ⟨hlast, not_not.mp hop, not_not.mp hmsg, ?_⟩ (h last)
      simpa [WriteCall.response] using haddr

lemma verifyWrite_checked (h : Checked call resp last) : verifyWrite K call ctx c resp =
    if last.writeCounter ≠ c + 1 then ⟨.error .security, some last.writeCounter, ctx⟩
    else ⟨authenticate K { ctx with wrCnt := ctx.wrCnt + 1 } (call.response c) resp last none none,
      some last.writeCounter, { ctx with wrCnt := ctx.wrCnt + 1 }⟩ := by
  obtain ⟨hlast, hop, hmsg, haddr⟩ := h
  have hkey : resultOk ≠ resultAuthKeyNotProgrammed := by decide
  have haddr' : ¬ (call.response c).blkIdx.any (fun idx => decide (last.address ≠ idx)) = true := by
    simp [WriteCall.response, haddr]
  rw [verifyWrite, respUnpackVerify, hlast]
  dsimp only
  rw [hop, if_neg hkey, if_neg haddr']
  simp [WriteCall.response, hmsg]

lemma exists_authenticate (K : Crypto) (ctx : Ctx) (c : UInt32) (h : Checked call resp last) :
    (∃ data, authenticate K ctx (call.response c) resp last none none = .ok data) ↔ MacOk K ctx.key resp last := by
  have hread : respAuthDataWrite ≠ respAuthDataRead := by decide
  simp only [authenticate, WriteCall.response, any_none, isNone_some, h.2.2.1, hread, if_false, Bool.false_eq_true, MacOk]
  by_cases hlen : resp.frames.length = 1
  · simp only [hlen, ne_eq, not_true, if_false, pure, Except.pure, ok_bind, true_and]
    cases resp.fault with
    | some e => simp
    | none => split_ifs with hmac <;> simp [hmac]
  · simp [hlen]

def WriteRun.emit (run : WriteRun) (req : List Frame) : WriteRun := { run with emitted := req :: run.emitted }

inductive Turn (K : Crypto) (call : WriteCall) (env : ℕ → Attempt) (left k : ℕ) (ctx : Ctx) (c : UInt32)
    (req : List Frame) : WriteRun → Prop
  | accepted {resp : Response} {last : Frame} (hinvoke : (env k).invoke = .ok resp) (hchecked : Checked call resp last)
      (hcnt : last.writeCounter = c + 1) (hmac : MacOk K ctx.key resp last) :
    Turn K call env left k ctx c req ⟨.ok (), { ctx with wrCnt := ctx.wrCnt + 1 }, false, [req], some resp⟩
  | unchecked {ctx' : Ctx} (hdevice : ctx'.device = ctx.device) (hwr : ctx'.wrCnt = ctx.wrCnt)
      (hinvoke : ∀ resp, (env k).invoke = .ok resp → ∀ last, ¬ Checked call resp last) :
    Turn K call env left k ctx c req ((writeReqLoop K call env left (k + 1) ctx' c).emit req)
  | mismatch {ctx' : Ctx} {resp : Response} {last : Frame} (hdevice : ctx'.device = ctx.device) (hwr : ctx'.wrCnt = ctx.wrCnt)
      (hinvoke : (env k).invoke = .ok resp) (hchecked : Checked call resp last) (hcnt : last.writeCounter ≠ c + 1) :
    Turn K call env left k ctx c req ((writeReqLoop K call env left (k + 1) ctx' last.writeCounter).emit req)
  | forged {ctx' : Ctx} {resp : Response} {last : Frame} (hdevice : ctx'.device = ctx.device) (hwr : ctx'.wrCnt = ctx.wrCnt + 1)
      (hinvoke : (env k).invoke = .ok resp) (hchecked : Checked call resp last) (hcnt : last.writeCounter = c + 1)
      (hmac : ¬ MacOk K ctx.key resp last) :
    Turn K call env left k ctx c req ((writeReqLoop K call env left (k + 1) ctx' last.writeCounter).emit req)

variable {left k : ℕ}

lemma exists_turn (left : ℕ) (c : UInt32) (hp : Packable K call ctx) (hfault : (env k).packFault = none) :
    ∃ req, req ≠ [] ∧ (∀ f ∈ req, f.writeCounter = c) ∧
      Turn K call env left k ctx c req (writeReqLoop K call env (left + 1) k ctx c) := by
  obtain ⟨req, hreq⟩ := exists_packWrite.mpr ⟨hp, hfault⟩
  obtain ⟨hne, hcnt⟩ := packWrite_ok hreq
  refine ⟨req, hne, hcnt, ?_⟩
  -- the context that the next turn starts from
  have hnext : ∀ ctx' : Ctx, ctx'.device = ctx.device →
      (if left = 0 then ctx' else { ctx' with wrCntSynced := false }).device = ctx.device ∧
      (if left = 0 then ctx' else { ctx' with wrCntSynced := false }).wrCnt = ctx'.wrCnt := by
    intro ctx' h
    split_ifs
    · exact ⟨h, rfl⟩
    · exact ⟨h, rfl⟩
  rw [writeReqLoop, hreq]
  cases hinvoke : (env k).invoke with
  | error e =>
    obtain ⟨hdevice, hwr⟩ := hnext ctx rfl
    exact .unchecked hdevice hwr (fun resp hresp => by rw [hinvoke] at hresp; cases hresp)
  | ok resp =>
    dsimp only
    by_cases hchecked : ∃ last, Checked call resp last
    · obtain ⟨last, hchecked⟩ := hchecked
      rw [verifyWrite_checked hchecked]
      by_cases hc : last.writeCounter = c + 1
      · rw [if_neg (not_not.mpr hc)]
        have hauth := exists_authenticate K { ctx with wrCnt := ctx.wrCnt + 1 } c hchecked
        cases hres : authenticate K { ctx with wrCnt := ctx.wrCnt + 1 } (call.response c) resp last none none with
        | ok data => exact .accepted hinvoke hchecked hc (hauth.mp ⟨data, hres⟩)
        | error e =>
          obtain ⟨hdevice, hwr⟩ := hnext { ctx with wrCnt := ctx.wrCnt + 1 } rfl
          refine .forged hdevice hwr hinvoke hchecked hc (fun hmac => ?_)
          obtain ⟨data, hdata⟩ := hauth.mpr hmac
          rw [hres] at hdata
          cases hdata
      · rw [if_pos hc]
        obtain ⟨hdevice, hwr⟩ := hnext ctx rfl
        exact .mismatch hdevice hwr hinvoke hchecked hc
    · obtain ⟨e, he⟩ := verifyWrite_unchecked K ctx c (not_exists.mp hchecked)
      rw [he]
      obtain ⟨hdevice, hwr⟩ := hnext ctx rfl
      refine .unchecked hdevice hwr (fun resp' hresp' => ?_)
      rw [hinvoke] at hresp'
      cases hresp'
      exact not_exists.mp hchecked

lemma Packable.congr {ctx' : Ctx} (hp : Packable K call ctx) (h : ctx'.device = ctx.device) : Packable K call ctx' := by
  simp only [Ctx.device, Prod.mk.injEq] at h
  obtain ⟨-, hmax, hrel⟩ := h
  simp only [Packable, hmax, hrel]
  exact hp

lemma exists_packWrite_error (c : UInt32) (h : ¬ (Packable K call ctx ∧ fault = none)) :
    ∃ e, packWrite K call ctx c fault = .error e := by
  cases hreq : packWrite K call ctx c fault with
  | error e => exact ⟨e, rfl⟩
  | ok req => exact absurd (exists_packWrite.mp ⟨req, hreq⟩) h

lemma loop_of_fault (hfault : (env k).packFault ≠ none) (hk : k ≠ 0) :
    writeReqLoop K call env (left + 1) k ctx c = writeReqLoop K call env left (k + 1) ctx c := by
  obtain ⟨e, he⟩ := exists_packWrite_error c (fun h : Packable K call ctx ∧ _ => hfault h.2)
  rw [writeReqLoop, he]
  exact if_neg hk

lemma loop_silent (hk : k ≠ 0) (h : ∀ m, k ≤ m → m < k + left → (env m).packFault ≠ none) :
    writeReqLoop K call env left k ctx c = ⟨.error .communication, ctx, true, [], none⟩ := by
  induction left generalizing k with
  | zero => rfl
  | succ left ih =>
    rw [loop_of_fault (h k le_rfl (by omega)) hk]
    exact ih (by omega) (fun m hm hlt => h m (by omega) (by omega))

lemma loop_emits_wrong (hp : Packable K call ctx) (hk : k ≠ 0) (hne : c ≠ w) {m : ℕ} (hm : k ≤ m) (hlt : m < k + left)
    (hfault : (env m).packFault = none) :
    ∃ req ∈ (writeReqLoop K call env left k ctx c).emitted, ∃ f ∈ req, f.writeCounter ≠ w := by
  induction left generalizing k with
  | zero => omega
  | succ left ih =>
    by_cases hf : (env k).packFault = none
    · obtain ⟨req, hreq, hcnt, hturn⟩ := exists_turn left c hp hf
      have hmem : req ∈ (writeReqLoop K call env (left + 1) k ctx c).emitted := by
        generalize writeReqLoop K call env (left + 1) k ctx c = run at hturn ⊢
        cases hturn with
        | accepted _ _ _ _ | unchecked _ _ _ | mismatch _ _ _ _ _ | forged _ _ _ _ _ _ => exact mem_cons_self
      obtain ⟨f, hmemf⟩ := exists_mem_of_ne_nil req hreq
      exact ⟨req, hmem, f, hmemf, by rwa [hcnt f hmemf]⟩
    · rw [loop_of_fault hf hk]
      have hmk : m ≠ k := by
        rintro rfl
        exact hf hfault
      exact ih (by omega) (by omega) (by omega)

lemma exists_count (env : ℕ → Attempt) (left : ℕ) (hp : Packable K call ctx) (hk : k ≠ 0) : ∃ d ≤ left,
    (writeReqLoop K call env left k ctx c).ctx.wrCnt = ctx.wrCnt + UInt32.ofNat d ∧
      ((writeReqLoop K call env left k ctx c).accepted.isSome → d ≠ 0) := by
  induction left generalizing k ctx c with
  | zero => exact ⟨0, le_rfl, by simp [writeReqLoop], by simp [writeReqLoop]⟩
  | succ left ih =>
    by_cases hf : (env k).packFault = none
    · obtain ⟨req, -, -, hturn⟩ := exists_turn left c hp hf
      generalize writeReqLoop K call env (left + 1) k ctx c = run at hturn ⊢
      cases hturn with
      | accepted _ _ _ _ => exact ⟨1, by omega, rfl, fun _ => one_ne_zero⟩
      | unchecked hdevice hwr _ =>
        obtain ⟨d, hd, hcnt, hacc⟩ := ih (hp.congr hdevice) (Nat.succ_ne_zero k)
        exact ⟨d, by omega, hcnt.trans (by rw [hwr]), hacc⟩
      | @mismatch _ _ last hdevice hwr _ _ _ =>
        obtain ⟨d, hd, hcnt, hacc⟩ := ih (hp.congr hdevice) (Nat.succ_ne_zero k)
        exact ⟨d, by omega, hcnt.trans (by rw [hwr]), hacc⟩
      | @forged _ _ last hdevice hwr _ _ _ _ =>
        obtain ⟨d, hd, hcnt, hacc⟩ := ih (hp.congr hdevice) (Nat.succ_ne_zero k)
        refine ⟨d + 1, by omega, hcnt.trans ?_, fun _ => Nat.succ_ne_zero d⟩
        rw [hwr, UInt32.ofNat_add, UInt32.add_assoc, UInt32.add_comm 1]
        rfl
    · rw [loop_of_fault hf hk]
      obtain ⟨d, hd, hcnt, hacc⟩ := ih hp (Nat.succ_ne_zero k)
      exact ⟨d, by omega, hcnt, hacc⟩

def Accepts (K : Crypto) (call : WriteCall) (env : ℕ → Attempt) (key : Bytes 32) (w : UInt32) (k : ℕ) : Prop :=
  (env k).packFault = none ∧ ∃ resp last, (env k).invoke = .ok resp ∧ Checked call resp last ∧
    last.writeCounter = w + 1 ∧ MacOk K key resp last

/-- Each response from turn `k` on that reaches the counter check is accepted, carries `w`, or is the last. -/
def Harmless (K : Crypto) (call : WriteCall) (env : ℕ → Attempt) (key : Bytes 32) (w : UInt32) (k left : ℕ) : Prop :=
  ∀ n, k ≤ n → n < k + left → (∀ m, k ≤ m → m < n → ¬ Accepts K call env key w m) → (env n).packFault = none →
    ∀ resp last, (env n).invoke = .ok resp → Checked call resp last →
      last.writeCounter = w + 1 ∧ MacOk K key resp last ∨ last.writeCounter = w ∨
      last.writeCounter ≠ w + 1 ∧ ∀ m, n < m → m < k + left → (env m).packFault ≠ none

variable {key : Bytes 32}

lemma Checked.unique {last' : Frame} (h : Checked call resp last) (h' : Checked call resp last') : last = last' :=
  Option.some.inj (h.1.symm.trans h'.1)

lemma harmless_succ (hnot : ¬ Accepts K call env key w k)
    (hself : (env k).packFault = none → ∀ resp last, (env k).invoke = .ok resp → Checked call resp last →
      last.writeCounter = w) :
    Harmless K call env key w k (left + 1) ↔ Harmless K call env key w (k + 1) left := by
  have hsum : k + (left + 1) = k + 1 + left := by omega
  constructor
  · intro h n hn hlt hacc
    have hn' := h n (by omega) (by omega) (fun m hm hmn => ?_)
    · rwa [hsum] at hn'
    · by_cases hmk : m = k
      · rwa [hmk]
      · exact hacc m (by omega) hmn
  · intro h n hn hlt hacc
    by_cases hnk : n = k
    · subst hnk
      exact fun hf resp last hi hc => Or.inr (Or.inl (hself hf resp last hi hc))
    · rw [hsum]
      exact h n (by omega) (by omega) (fun m hm hmn => hacc m (by omega) hmn)

lemma ne_succ (w : UInt32) : w ≠ w + 1 := by
  intro h
  have := congrArg UInt32.toNat h
  simp at this
  omega

lemma disciplined_emit {run : WriteRun} (hreq : ∀ f ∈ req, f.writeCounter = w) :
    Disciplined K key w (run.emit req) ↔ Disciplined K key w run := by
  have hemit : (∀ req' ∈ (run.emit req).emitted, ∀ f ∈ req', f.writeCounter = w) ↔
      ∀ req' ∈ run.emitted, ∀ f ∈ req', f.writeCounter = w := by
    rw [WriteRun.emit, forall_mem_cons]
    exact and_iff_right hreq
  rw [Disciplined, hemit]
  rfl

lemma not_disciplined_of_moved (hp : Packable K call ctx) (hk : k ≠ 0) (hwr : ctx.wrCnt = w + 1) (hleft : left < 2 ^ 31) :
    ¬ Disciplined K key w (writeReqLoop K call env left k ctx c) := by
  rintro ⟨-, hcnt, -⟩
  obtain ⟨d, hd, hcount, hacc⟩ := exists_count env left hp hk
  rw [hcount, hwr] at hcnt
  have hnat := congrArg UInt32.toNat hcnt
  split_ifs at hnat with hsome
  · have := hacc hsome
    simp at hnat
    omega
  · simp at hnat
    omega

lemma key_of_device {ctx' : Ctx} (h : ctx'.device = ctx.device) : ctx'.key = ctx.key := congrArg Prod.fst h

lemma disciplined_of_wrong (hp : Packable K call ctx) (hk : k ≠ 0) (hwr : ctx.wrCnt = w) (hne : c ≠ w) :
    Disciplined K key w (writeReqLoop K call env left k ctx c) ↔
      ∀ m, k ≤ m → m < k + left → (env m).packFault ≠ none := by
  constructor
  · intro h m hm hlt hfault
    obtain ⟨req, hreq, f, hf, hwrong⟩ := loop_emits_wrong hp hk hne hm hlt hfault
    exact hwrong (h.1 req hreq f hf)
  · intro h
    rw [loop_silent hk h]
    refine ⟨fun req hreq => ?_, hwr, fun resp hresp => ?_⟩
    · cases hreq
    · cases hresp

lemma disciplined_loop (left : ℕ) (hp : Packable K call ctx) (hk : k ≠ 0 ∨ (env k).packFault = none) (hwr : ctx.wrCnt = w)
    (hleft : left < 2 ^ 31) : Disciplined K ctx.key w (writeReqLoop K call env left k ctx w) ↔
      Harmless K call env ctx.key w k left := by
  induction left generalizing k ctx with
  | zero =>
    refine iff_of_true ⟨fun req hreq => ?_, hwr, fun resp hresp => ?_⟩ (fun n hn hlt => by omega)
    · cases hreq
    · cases hresp
  | succ left ih =>
    by_cases hf : (env k).packFault = none
    · obtain ⟨req, -, hreq, hturn⟩ := exists_turn left w hp hf
      generalize writeReqLoop K call env (left + 1) k ctx w = run at hturn ⊢
      cases hturn with
      | @accepted resp last hinvoke hchecked hcnt hmac =>
        refine iff_of_true ⟨fun req' hreq' => ?_, ?_, fun resp' hresp' => ?_⟩ (fun n hn hlt hacc hfn resp' last' hi hc => ?_)
        · rwa [mem_singleton.mp hreq']
        · rw [hwr]
          rfl
        · cases hresp'
          obtain ⟨f, hframes⟩ := length_eq_one_iff.mp hmac.1
          obtain rfl : f = last := by
            have hlast := hchecked.1
            rw [hframes] at hlast
            exact Option.some.inj hlast
          exact ⟨f, hmac, hframes⟩
        · by_cases hnk : n = k
          · subst hnk
            rw [hinvoke] at hi
            cases hi
            rw [hc.unique hchecked]
            exact Or.inl ⟨hcnt, hmac⟩
          · exact absurd ⟨hf, resp, last, hinvoke, hchecked, hcnt, hmac⟩ (hacc k le_rfl (by omega))
      | @unchecked ctx' hdevice hwr' hinvoke =>
        rw [disciplined_emit hreq, ← key_of_device hdevice,
          ih (hp.congr hdevice) (Or.inl (Nat.succ_ne_zero k)) (hwr'.trans hwr) (by omega), harmless_succ]
        · rintro ⟨-, resp, last, hi, hc, -⟩
          exact hinvoke resp hi last hc
        · exact fun _ resp last hi hc => absurd hc (hinvoke resp hi last)
      | @mismatch ctx' resp last hdevice hwr' hinvoke hchecked hcnt =>
        have hself : ∀ resp' last', (env k).invoke = .ok resp' → Checked call resp' last' → last' = last := by
          intro resp' last' hi hc
          rw [hinvoke] at hi
          cases hi
          exact hc.unique hchecked
        have hnot : ¬ Accepts K call env ctx'.key w k := by
          rintro ⟨-, resp', last', hi, hc, hcnt', -⟩
          rw [hself resp' last' hi hc] at hcnt'
          exact hcnt hcnt'
        rw [disciplined_emit hreq, ← key_of_device hdevice]
        by_cases hw : last.writeCounter = w
        · rw [hw, ih (hp.congr hdevice) (Or.inl (Nat.succ_ne_zero k)) (hwr'.trans hwr) (by omega), harmless_succ hnot]
          exact fun _ resp' last' hi hc => by rw [hself resp' last' hi hc, hw]
        rw [disciplined_of_wrong (hp.congr hdevice) (Nat.succ_ne_zero k) (hwr'.trans hwr) hw]
        constructor
        · intro hsilent n hn hlt hacc hfn resp' last' hi hc
          by_cases hnk : n = k
          · subst hnk
            rw [hself resp' last' hi hc]
            exact Or.inr (Or.inr ⟨hcnt, fun m hm hml => hsilent m hm (by omega)⟩)
          · exact absurd hfn (hsilent n (by omega) (by omega))
        · intro h m hm hml
          rcases h k le_rfl (by omega) (fun m hm hlt => by omega) hf resp last hinvoke hchecked with
            ⟨h', -⟩ | h' | ⟨-, h'⟩
          · exact absurd h' hcnt
          · exact absurd h' hw
          · exact h' m hm (by omega)
      | @forged ctx' resp last hdevice hwr' hinvoke hchecked hcnt hmac =>
        refine iff_of_false (fun h => ?_) (fun h => ?_)
        · rw [disciplined_emit hreq] at h
          exact not_disciplined_of_moved (hp.congr hdevice) (Nat.succ_ne_zero k) (by rw [hwr', hwr]) (by omega) h
        · rcases h k le_rfl (by omega) (fun m hm hlt => by omega) hf resp last hinvoke hchecked with
            ⟨-, h'⟩ | h' | ⟨h', -⟩
          · exact hmac h'
          · exact ne_succ w (h'.symm.trans hcnt)
          · exact h' hcnt
    · have hk0 : k ≠ 0 := hk.resolve_right hf
      rw [loop_of_fault hf hk0, ih hp (Or.inl (Nat.succ_ne_zero k)) hwr (by omega),
        harmless_succ (fun h => hf h.1) (fun h => absurd h hf)]

theorem write_counter_discipline (K : Crypto) (call : WriteCall) (env : ℕ → Attempt) (ctx : Ctx) :
    Disciplined K ctx.key ctx.wrCnt (writeReq K call env ctx) ↔
      (call.memReqSize ≤ reqSize + call.blkcnt.toNat * dataFrameSize ∧ call.memRespSize ≤ dataFrameSize →
        Packable K call ctx → (env 0).packFault = none → Harmless K call env ctx.key ctx.wrCnt 0 maxRetries) := by
  have hstop : ∀ {e : TeeError}, Disciplined K ctx.key ctx.wrCnt ⟨.error e, ctx, false, [], none⟩ :=
    ⟨fun _ h => absurd h not_mem_nil, rfl, fun _ h => by cases h⟩
  rw [writeReq]
  split_ifs with hmem
  · by_cases hpack : Packable K call ctx ∧ (env 0).packFault = none
    · rw [disciplined_loop maxRetries hpack.1 (Or.inr hpack.2) rfl (by decide)]
      exact ⟨fun h _ _ _ => h, fun h => h hmem hpack.1 hpack.2⟩
    · obtain ⟨e, he⟩ := exists_packWrite_error ctx.wrCnt hpack
      refine iff_of_true ?_ (fun _ hp hf => absurd ⟨hp, hf⟩ hpack)
      rw [maxRetries, writeReqLoop, he]
      exact hstop
  · exact iff_of_true hstop (fun h => absurd h hmem)

def toyCrypto : Crypto where
  mac := fun _ bytes => ⟨resize (bytes.drop 272) 32, resize_length _ _⟩
  encryptBlock := fun _ _ _ data => pure data
  decryptBlock := fun _ _ _ data => pure data

def toyCtx : Ctx := ⟨zeroBytes 32, 0, 100, 1, true⟩

def toyCall : WriteCall := ⟨5, [], 1, none, none, 518, 512⟩

def toyFrame (counter : UInt32) : Frame :=
  { Frame.zero with writeCounter := counter, address := 5, msgType := respAuthDataWrite }

def toyHonest : Attempt := ⟨none, .ok ⟨[toyFrame 1], macCalc toyCrypto (zeroBytes 32) [toyFrame 1], none⟩⟩

theorem write_counter_discipline_honest : (writeReq toyCrypto toyCall (fun _ => toyHonest) toyCtx).ctx.wrCnt = 1 ∧
    Disciplined toyCrypto toyCtx.key toyCtx.wrCnt (writeReq toyCrypto toyCall (fun _ => toyHonest) toyCtx) := by
  have hchecked : Checked toyCall ⟨[toyFrame 1], macCalc toyCrypto (zeroBytes 32) [toyFrame 1], none⟩ (toyFrame 1) :=
    ⟨rfl, rfl, rfl, rfl⟩
  refine ⟨by decide +kernel, (write_counter_discipline _ _ _ _).mpr fun _ _ _ n _ _ _ _ resp last hi hc => ?_⟩
  cases hi
  rw [hc.unique hchecked]
  exact Or.inl ⟨rfl, rfl, rfl, rfl⟩

def toyForger (n : ℕ) : Attempt :=
  if n = 0 then ⟨none, .ok ⟨[toyFrame 7], zeroBytes 32, none⟩⟩ else ⟨none, .error .communication⟩

theorem forged_counter_in_next_request : ¬ MacOk toyCrypto toyCtx.key ⟨[toyFrame 7], zeroBytes 32, none⟩ (toyFrame 7) ∧
    ((writeReq toyCrypto toyCall toyForger toyCtx).emitted.map (List.map Frame.writeCounter)).take 2 = [[0], [7]] ∧
    ¬ Disciplined toyCrypto toyCtx.key toyCtx.wrCnt (writeReq toyCrypto toyCall toyForger toyCtx) := by
  have hemitted : ((writeReq toyCrypto toyCall toyForger toyCtx).emitted.map (List.map Frame.writeCounter)).take 2 =
      [[0], [7]] := by decide +kernel
  refine ⟨fun h => absurd h.2.2 (by decide +kernel), hemitted, fun h => ?_⟩
  have hseven : [7] ∈ (writeReq toyCrypto toyCall toyForger toyCtx).emitted.map (List.map Frame.writeCounter) :=
    mem_of_mem_take (by rw [hemitted]; simp)
  obtain ⟨req, hreq, heq⟩ := mem_map.mp hseven
  obtain ⟨f, hf, hcounter⟩ := mem_map.mp (heq ▸ mem_singleton_self (7 : UInt32))
  have hzero : f.writeCounter = 0 := h.1 req hreq f hf
  exact absurd (hcounter.symm.trans hzero) (by decide)

end Optee.Rpmb
