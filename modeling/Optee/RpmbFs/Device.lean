import Optee.Lib.Effects
import Optee.Rpmb.WriteCounter

/-! Reading and writing byte ranges of the device. -/

namespace Optee.RpmbFs

open Lib.ByteStrings Lib.Effects Rpmb List

abbrev Device := ℕ → Bytes 256

inductive Stop
  | code (e : TeeError)
  | reset
  deriving DecidableEq

structure Fault where
  stop : Stop
  done : Bool

abbrev Faults := ℕ → Option Fault

structure World where
  dev : Device
  wrCnt : UInt32
  requests : ℕ
  trail : List Device

abbrev Fs := EStateM Stop World

def ofResult {σ α : Type} : TeeResult α → EStateM Stop σ α
  | .ok a => pure a
  | .error e => throw (.code e)

section Requests

variable (K : Crypto) (ctx : Ctx) (φ : Faults)

def overlay (dev : Device) (blkIdx : ℕ) (frames : List Frame) : Device := fun b =>
  if blkIdx ≤ b then (frames[b - blkIdx]?).elim (dev b) Frame.data else dev b

def World.program (w : World) (blkIdx : ℕ) (frames : List Frame) : World :=
  { w with
    dev := overlay w.dev blkIdx frames
    wrCnt := w.wrCnt + 1
    trail := overlay w.dev blkIdx frames :: w.trail }

def sendWrite (blkIdx : ℕ) (frames : List Frame) : Fs Unit := fun w =>
  let t := { w with requests := w.requests + 1 }
  match φ w.requests with
  | none => .ok () (t.program blkIdx frames)
  | some f => .error f.stop (if f.done then t.program blkIdx frames else t)

def writeCall (memReqSize blkIdx : ℕ) (dataBlks : List UInt8) (blkcnt : ℕ) (fek : Option (Bytes 16)) (uuid : Option Uuid) :
    WriteCall := ⟨UInt16.ofNat blkIdx, dataBlks, UInt16.ofNat blkcnt, fek, uuid, memReqSize, dataFrameSize⟩

def writeReq (memReqSize blkIdx : ℕ) (dataBlks : List UInt8) (blkcnt : ℕ) (fek : Option (Bytes 16)) (uuid : Option Uuid) :
    Fs Unit :=
  if memReqSize ≤ reqSize + blkcnt * dataFrameSize then do
    let w ← get
    let frames ← ofResult (packWrite K (writeCall memReqSize blkIdx dataBlks blkcnt fek uuid) ctx w.wrCnt none)
    sendWrite φ blkIdx frames
  -- the assertion fails and the core stops
  else throw .reset

def memReqSize (blkcnt : ℕ) : ℕ :=
  if blkcnt < ctx.relWrBlkcnt.toNat then reqSize + dataFrameSize * blkcnt
  else reqSize + dataFrameSize * ctx.relWrBlkcnt.toNat

def nbrWrites (blkcnt : ℕ) : ℕ :=
  blkcnt / ctx.relWrBlkcnt.toNat + if blkcnt % ctx.relWrBlkcnt.toNat > 0 then 1 else 0

def teeRpmbWriteBlk (blkIdx : ℕ) (dataBlks : List UInt8) (blkcnt : ℕ) (fek : Option (Bytes 16)) (uuid : Option Uuid) :
    Fs Unit :=
  if blkcnt = 0 then throw (.code .badParameters)
  else
    let rel := ctx.relWrBlkcnt.toNat
    let n := nbrWrites ctx blkcnt
    (List.range n).forM (fun i =>
      writeReq K ctx φ (memReqSize ctx blkcnt) (blkIdx + i * rel) (dataBlks.drop (i * rel * 256))
        (if i = n - 1 then blkcnt - rel * (n - 1) else rel) fek uuid)

def blkIdx (addr : ℕ) : ℕ := addr / 256 % 2 ^ 16

def blkcnt (addr len : ℕ) : ℕ := (len + addr % 256 + 255) / 256 % 2 ^ 16

def readFrames (dev : Device) (blkIdx blkcnt : ℕ) : List Frame :=
  (List.range blkcnt).map (fun i =>
    { Frame.zero with
      data := dev (blkIdx + i)
      address := UInt16.ofNat blkIdx
      blockCount := UInt16.ofNat blkcnt
      msgType := respAuthDataRead })

def teeRpmbRead (addr len : ℕ) (fek : Option (Bytes 16)) (uuid : Option Uuid) : Fs (List UInt8) := fun w =>
  if len = 0 ∨ len + addr % 256 + 256 ≥ 2 ^ 32 then .error (.code .badParameters) w
  else if blkIdx addr + blkcnt addr len - 1 > ctx.maxBlkIdx.toNat then .error (.code .generic) w
  else
    let t := { w with requests := w.requests + 1 }
    let frames := readFrames w.dev (blkIdx addr) (blkcnt addr len)
    let raw : RawData := ⟨respAuthDataRead, some (UInt16.ofNat (blkcnt addr len)), some (UInt16.ofNat (blkIdx addr)), none,
      none, some (zeroBytes 32), some [], UInt32.ofNat len, UInt8.ofNat (addr % 256)⟩
    match φ w.requests, frames.getLast? with
    | some f, _ => .error f.stop t
    | none, none => .error (.code .badParameters) t
    | none, some last =>
      match dataCpyMacCalc K ctx raw frames last fek uuid with
      | .error e => .error (.code e) t
      | .ok (data, _) => .ok data t

def teeRpmbWriteIsAtomic (addr len : ℕ) : Bool := blkcnt addr len ≤ ctx.relWrBlkcnt.toNat

def teeRpmbWrite (addr : ℕ) (data : List UInt8) (fek : Option (Bytes 16)) (uuid : Option Uuid) : Fs Unit :=
  if addr % 256 = 0 ∧ data.length % 256 = 0 then
    teeRpmbWriteBlk K ctx φ (blkIdx addr) data (blkcnt addr data.length) fek uuid
  else do
    let tmp ← teeRpmbRead K ctx φ (blkIdx addr * 256) (blkcnt addr data.length * 256) fek uuid
    teeRpmbWriteBlk K ctx φ (blkIdx addr) (patch tmp (addr % 256) data) (blkcnt addr data.length) fek uuid

end Requests

def SameOutside (lo hi : ℕ) (d d' : Device) : Prop := ∀ b, b < lo ∨ hi ≤ b → d' b = d b

section Blocks

variable (K : Crypto)

def cipherBlock (fek : Option (Bytes 16)) (uuid : Option Uuid) (b : ℕ) (plain : Bytes 256) : TeeResult (Bytes 256) :=
  match fek with
  | none => pure plain
  | some fek => K.encryptBlock uuid fek (UInt16.ofNat b) plain

def plainBlock (fek : Option (Bytes 16)) (uuid : Option Uuid) (dev : Device) (b : ℕ) : TeeResult (Bytes 256) :=
  match fek with
  | none => pure (dev b)
  | some fek => if fek = zeroBytes 16 then .error .security else K.decryptBlock uuid fek (UInt16.ofNat b) (dev b)

structure Enciphered (fek : Option (Bytes 16)) (uuid : Option Uuid) (blkIdx n : ℕ) (data : List UInt8)
    (dev dev' : Device) : Prop where
  same : SameOutside blkIdx (blkIdx + n) dev dev'
  stored : ∀ i < n, cipherBlock K fek uuid (blkIdx + i) (block data i) = .ok (dev' (blkIdx + i))

end Blocks

variable {K : Crypto} {ctx : Ctx} {φ : Faults} {d : Device} {fek : Option (Bytes 16)} {uuid : Option Uuid}
  {data : List UInt8} {frames : List Frame} {dev : Device} {blkIdx i n idx mem : ℕ} {c : UInt32} {call : WriteCall}

lemma setMac_body (mac : Bytes 32) (frames : List Frame) :
    (setMac mac frames).map (fun f => (f.data, f.address)) = frames.map (fun f => (f.data, f.address)) := by
  fun_induction setMac mac frames with
  | case1 | case2 f => rfl
  | case3 f fs _ ih => simp [ih]

lemma packFrame_data {ctx : Ctx} {raw : RawData} {f : Frame} (h : packFrame K ctx raw n fek uuid i = .ok f) :
    packData K raw fek uuid i = .ok f.data ∧ f.address = raw.blkIdx.getD 0 := by
  rw [packFrame] at h
  split_ifs at h
  obtain ⟨data, hdata, hf⟩ := TeeResult.bind_eq_ok.mp h
  cases hf
  exact ⟨hdata, rfl⟩

lemma packWrite_data (h : packWrite K call ctx c none = .ok frames) :
    frames.length = call.blkcnt.toNat ∧ ∀ i < call.blkcnt.toNat, ∃ f, frames[i]? = some f ∧
      packData K (call.request c) call.fek call.uuid i = .ok f.data ∧ f.address = call.blkIdx := by
  obtain ⟨-, -, -, packed, hpacked, hframes⟩ := reqPack_frames h
  have hall := TeeResult.mapM_eq_ok.mp hpacked
  have hbody : frames.map (fun f => (f.data, f.address)) = packed.map (fun f => (f.data, f.address)) := by
    rcases hframes with rfl | ⟨mac, rfl⟩
    · rfl
    · exact setMac_body mac packed
  have hlen : packed.length = call.blkcnt.toNat := by rw [← hall.length_eq, length_range]
  have hlen' : frames.length = packed.length := by simpa using congrArg List.length hbody
  refine ⟨hlen'.trans hlen, fun i hi => ?_⟩
  have hif : i < frames.length := by omega
  have hip : i < packed.length := by omega
  have hget := hall.get (by simpa using hi) hip
  have heq : frames[i].data = packed[i].data ∧ frames[i].address = packed[i].address := by
    have := congrArg (fun xs => xs[i]?) hbody
    simpa [hif, hip] using this
  refine ⟨frames[i], getElem?_eq_getElem hif, ?_⟩
  obtain ⟨hdata, haddr⟩ := packFrame_data hget
  exact ⟨by simpa [heq.1] using hdata, heq.2.trans haddr⟩

lemma packData_request (h : call.blkIdx = UInt16.ofNat idx) :
    packData K (call.request c) call.fek call.uuid i = cipherBlock K call.fek call.uuid (idx + i) (block call.dataBlks i) := by
  cases hfek : call.fek with
  | none => rfl
  | some fek => simp [packData, cipherBlock, WriteCall.request, h, UInt16.ofNat_add]

def Struck (φ : Faults) (e : Stop) : Prop := ∃ k f, φ k = some f ∧ f.stop = e

def At (d : Device) (w : World) : Prop := w.dev = d

lemma Spec.ofResult {σ α : Type} {x : TeeResult α} {P : σ → Prop} {Q : α → σ → Prop} {R : Stop → σ → Prop}
    (hok : ∀ a, x = .ok a → ∀ s, P s → Q a s) (herr : ∀ e, x = .error e → ∀ s, P s → R (.code e) s) :
    Spec P (ofResult x) Q R := by
  cases x with
  | ok a => exact .pure (hok a rfl)
  | error e => exact .throw (herr e rfl)

lemma sendWrite_spec :
    Spec (At d) (sendWrite φ idx frames) (fun _ => At (overlay d idx frames)) (fun _ _ => True) := by
  rintro w rfl
  unfold sendWrite
  split
  · exact rfl
  · trivial

lemma enciphered_overlay (hn : n < 2 ^ 16)
    (hpack : packWrite K (writeCall mem idx data n fek uuid) ctx c none = .ok frames) :
    Enciphered K fek uuid idx n data d (overlay d idx frames) := by
  have hcnt : (writeCall mem idx data n fek uuid).blkcnt.toNat = n := UInt16.toNat_ofNat_of_lt' hn
  obtain ⟨hlen, hget⟩ := packWrite_data hpack
  rw [hcnt] at hlen hget
  constructor
  · rintro b (hb | hb)
    · exact if_neg (Nat.not_le.mpr hb)
    · rw [overlay, if_pos (by omega), getElem?_eq_none (by omega)]
      rfl
  · intro i hi
    obtain ⟨f, hf, hdata, -⟩ := hget i hi
    rw [packData_request (rfl)] at hdata
    rw [overlay, if_pos (Nat.le_add_right _ _), Nat.add_sub_cancel_left, hf]
    exact hdata

lemma writeReq_spec (hn : n < 2 ^ 16) : Spec (At d) (writeReq K ctx φ mem idx data n fek uuid)
    (fun _ w => Enciphered K fek uuid idx n data d w.dev) (fun _ _ => True) := by
  unfold writeReq
  split
  · refine .bind (.get (fun _ => id)) (fun w => ?_)
    refine .bind (Q := fun frames w' => packWrite K (writeCall mem idx data n fek uuid) ctx w.wrCnt none = .ok frames ∧
      At d w') (Spec.ofResult (fun frames hpack w' hw' => ⟨hpack, hw'⟩) (fun _ _ _ _ => trivial)) (fun frames => ?_)
    rintro w' ⟨hpack, rfl⟩
    exact (sendWrite_spec w' rfl).mono (fun _ t ht => ht ▸ enciphered_overlay hn hpack) (fun _ _ => id)
  · exact .throw (fun _ _ => trivial)

lemma block_drop (data : List UInt8) (c i : ℕ) : block (data.drop (c * 256)) i = block data (c + i) := by
  apply Subtype.ext
  simp only [block, drop_drop]
  rw [Nat.add_mul]

lemma Enciphered.append {c m : ℕ} {d1 d2 : Device} (h1 : Enciphered K fek uuid idx c data d d1)
    (h2 : Enciphered K fek uuid (idx + c) m (data.drop (c * 256)) d1 d2) :
    Enciphered K fek uuid idx (c + m) data d d2 where
  same b hb := by rw [h2.same b (by omega), h1.same b (by omega)]
  stored i hi := by
    by_cases hic : i < c
    · rw [h2.same _ (by omega)]
      exact h1.stored i hic
    · obtain ⟨j, rfl⟩ := Nat.exists_eq_add_of_le (Nat.le_of_not_lt hic)
      have := h2.stored j (by omega)
      rwa [block_drop, add_assoc] at this

lemma Enciphered.zero :
    Enciphered K fek uuid idx 0 data d d := ⟨fun _ _ => rfl, fun i hi => absurd hi (Nat.not_lt_zero i)⟩

lemma nbrWrites_bounds (ctx : Ctx) (hn : n ≠ 0) :
    0 < nbrWrites ctx n ∧ ctx.relWrBlkcnt.toNat * (nbrWrites ctx n - 1) ≤ n := by
  unfold nbrWrites
  generalize ctx.relWrBlkcnt.toNat = r
  have hdiv := Nat.div_add_mod n r
  split_ifs with hm
  · exact ⟨Nat.succ_pos _, Nat.mul_div_le n r⟩
  have hq : 0 < n / r := pos_of_ne_zero fun h0 => by
    rw [h0] at hdiv
    omega
  exact ⟨hq, (Nat.mul_le_mul_left r (Nat.sub_le _ 1)).trans (Nat.mul_div_le n r)⟩

lemma memReqSize_le_of_le (h : n ≤ ctx.relWrBlkcnt.toNat) : memReqSize ctx n ≤ reqSize + n * dataFrameSize := by
  unfold memReqSize
  split_ifs with hlt
  · rw [mul_comm]
  · rw [Nat.mul_comm, Nat.le_antisymm h (Nat.le_of_not_lt hlt)]

lemma teeRpmbWriteBlk_spec (hn : n < 2 ^ 16) : Spec (At d) (teeRpmbWriteBlk K ctx φ idx data n fek uuid)
    (fun _ w => Enciphered K fek uuid idx n data d w.dev) (fun _ _ => True) := by
  unfold teeRpmbWriteBlk
  split_ifs with h0
  · exact .throw (fun _ _ => trivial)
  obtain ⟨hN, hle⟩ := nbrWrites_bounds ctx h0
  set r := ctx.relWrBlkcnt.toNat with hr
  set N := nbrWrites ctx n with hNdef
  -- the blocks written before turn `k`
  let covered := fun k => if k = N then n else k * r
  have hloop := Spec.forM_range (I := fun k w => Enciphered K fek uuid idx (covered k) data d w.dev) N
    (f := fun i => writeReq K ctx φ (memReqSize ctx n) (idx + i * r) (data.drop (i * r * 256))
      (if i = N - 1 then n - r * (N - 1) else r) fek uuid)
    (R := fun _ _ => True) (fun i hi => ?_)
  · refine hloop.mono ?_ ?_ (fun _ _ => id)
    · rintro w rfl
      have h00 : covered 0 = 0 := by
        simp only [covered]
        rw [if_neg (by omega), Nat.zero_mul]
      rw [h00]
      exact Enciphered.zero
    · rintro - w hw
      simpa only [covered, if_pos] using hw
  set m := if i = N - 1 then n - r * (N - 1) else r with hm
  have hcov : covered i = i * r := if_neg (by omega)
  have hsum : covered (i + 1) = i * r + m := by
    simp only [covered, hm]
    by_cases hlast : i = N - 1
    · rw [if_pos (by omega), if_pos hlast, hlast, mul_comm]
      omega
    · rw [if_neg (by omega), if_neg hlast, Nat.add_mul, one_mul]
  have hbound : i * r + m ≤ n := by
    rw [← hsum]
    simp only [covered]
    split_ifs with hlast
    · exact Nat.le_refl n
    · have : (i + 1) * r ≤ r * (N - 1) := by
        rw [mul_comm]
        exact Nat.mul_le_mul_left r (by omega)
      omega
  intro w henc
  rw [hcov] at henc
  exact (writeReq_spec (by omega) w rfl).mono (fun _ t ht => hsum ▸ henc.append ht) (fun _ _ => id)

end Optee.RpmbFs
