import Optee.FsHtree.ToyCrypto
import Optee.ReeFs.Contents

/-! An open file behaves as a byte array, whatever the order of reads, writes and truncations. -/

namespace Optee.ReeFs

open FsHtree Lib.ByteStrings TeeResult

inductive Op
  | write (pos : ℕ) (buf : List UInt8) (ivs : ℕ → ℕ → Bytes 16)
  | truncate (newLen : ℕ) (ivs : ℕ → Bytes 16)
  | read (pos len : ℕ)

variable (C : Crypto)

def Op.run (fd : Fd) : Op → TeeResult (Fd × List (ℕ × List UInt8))
  | .write pos buf ivs => do
    let (fd, _) ← writePrimitive C fd pos buf ivs
    pure (fd, [])
  | .truncate newLen ivs => do
    let (fd, _) ← ftruncateInternal C fd newLen ivs
    pure (fd, [])
  | .read pos len => do
    let r ← readPrimitive C fd pos len
    pure (fd, [r])

def runOps : Fd → List Op → TeeResult (Fd × List (ℕ × List UInt8))
  | fd, [] => pure (fd, [])
  | fd, op :: ops => do
    let (fd₁, out) ← op.run C fd
    let (fd₂, outs) ← runOps fd₁ ops
    pure (fd₂, out ++ outs)

def Op.InRange : Op → Prop
  | .write pos buf _ => pos + buf.length ≤ 2 ^ 31
  | .truncate newLen _ => newLen ≤ 2 ^ 31
  | .read pos len => pos + len ≤ 2 ^ 31

def Op.effect (F : List UInt8) : Op → List UInt8
  | .write pos buf _ => if buf = [] then F else patch F pos buf
  | .truncate newLen _ => resize F newLen
  | .read _ _ => F

def Op.result (F : List UInt8) : Op → List (ℕ × List UInt8)
  | .read pos len => [(min len (F.length - pos), slice F pos len)]
  | _ => []

def results : List UInt8 → List Op → List (ℕ × List UInt8)
  | _, [] => []
  | F, op :: ops => op.result F ++ results (op.effect F) ops

def effects (F : List UInt8) (ops : List Op) : List UInt8 := ops.foldl Op.effect F

def Opened (fd : Fd) : Prop :=
  (∃ hash uuid, openHtree C fd.file hash uuid = .ok fd.ht) ∨
    ∃ uuid fek iv hash ws, createHtree C uuid fek iv = .ok (fd.ht, hash, ws) ∧
      fd.file = HostFile.empty.writeAll ws

variable {C}
variable {fd : Fd} {F : List UInt8}

lemma Stores.op (h : Stores C fd F) (hC : C.Correct) {op : Op} (hop : op.InRange) :
    ∃ fd', op.run C fd = .ok (fd', op.result F) ∧ Stores C fd' (op.effect F) := by
  cases op with
  | write pos buf ivs =>
    by_cases hbuf : buf = []
    · subst hbuf
      exact ⟨fd, rfl, h⟩
    obtain ⟨fd', ws, hrun, hst, -, -⟩ := h.writePrimitive hC hbuf hop ivs
    refine ⟨fd', ?_, ?_⟩
    · rw [Op.run, hrun]
      rfl
    · rwa [Op.effect, if_neg hbuf]
  | truncate newLen ivs =>
    by_cases hgrow : F.length < newLen
    · obtain ⟨fd', ws, hrun, hst, -, -⟩ := h.grow hC hgrow hop ivs
      refine ⟨fd', ?_, hst⟩
      rw [Op.run, hrun]
      rfl
    · refine ⟨shrunkFd fd newLen, ?_, h.shrunk (by omega)⟩
      rw [Op.run, ftruncateInternal_shrink h.wf (by rw [h.length_eq]; omega)]
      rfl
  | read pos len =>
    refine ⟨fd, ?_, h⟩
    rw [Op.run, h.readPrimitive (lt_of_le_of_lt hop (by norm_num))]
    rfl

lemma Stores.ops (h : Stores C fd F) (hC : C.Correct) {ops : List Op} (hops : ∀ op ∈ ops, op.InRange) :
    ∃ fd', runOps C fd ops = .ok (fd', results F ops) ∧ Stores C fd' (effects F ops) := by
  induction ops generalizing fd F with
  | nil => exact ⟨fd, rfl, h⟩
  | cons op ops ih =>
    obtain ⟨fd1, hrun1, h1⟩ := h.op hC (hops op List.mem_cons_self)
    obtain ⟨fd2, hrun2, h2⟩ := ih h1 (fun o ho => hops o (List.mem_cons_of_mem op ho))
    refine ⟨fd2, ?_, h2⟩
    simp [runOps, hrun1, hrun2, ok_bind, pure, Except.pure, results]

lemma Opened.wf (h : Opened C fd) : fd.ht.Wf := by
  rcases h with ⟨hash, uuid, h⟩ | ⟨uuid, fek, iv, hash, ws, h, -⟩
  · obtain ⟨-, v, -, hc⟩ := openHtree_ok_iff.mp h
    exact hc.wf
  have hw : (newHtree C uuid fek).Wf := shape_leaf rfl
  have htidy : Tidy 1 (newHtree C uuid fek).root := ⟨Bool.le_true _, trivial, trivial⟩
  simp only [createHtree, hw.syncToStorage_dirty htidy rfl, ok_bind, pure, Except.pure,
    Except.ok.injEq, Prod.mk.injEq] at h
  rw [← h.1]
  exact hw.syncTree

lemma readLoop_ok (hw : fd.ht.Wf) {pos remain k : ℕ} {out : List UInt8} {s : ReadLoop} (hr : 0 < remain)
    (hk : (pos + remain - 1) / blockSize + 1 = pos / blockSize + k)
    (h : (List.range' (pos / blockSize) k).foldlM (readTurn C fd) ⟨pos, remain, out⟩ = .ok s) :
    ∃ R, s.out = out ++ R ∧ R.length = remain ∧ ∀ num, pos / blockSize ≤ num → num * blockSize < pos + remain →
      ∃ b, BlockAt C fd.file fd.ht num b ∧ ∀ i, i < blockSize → pos ≤ num * blockSize + i →
        num * blockSize + i < pos + remain → b.toList.getD i 0 = R.getD (num * blockSize + i - pos) 0 := by
  have hbs : blockSize = 4096 := rfl
  induction k generalizing pos remain out with
  | zero => rw [hbs] at hk; omega
  | succ k ih =>
    have hsize := sizeInBlock_eq pos remain
    have hdiv := Nat.div_add_mod' pos blockSize
    rw [List.range'_succ, List.foldlM_cons, bind_eq_ok] at h
    obtain ⟨s1, hturn, hloop⟩ := h
    simp only [readTurn, bind_eq_ok, pure, Except.pure] at hturn
    obtain ⟨b, hb, he⟩ := hturn
    cases he
    rw [readBlock_ok_iff hw] at hb
    generalize sizeInBlock pos remain = size at *
    have hpiece : (slice b.toList (pos % blockSize) size).length = size := by
      rw [slice_length, List.Vector.toList_length]
      omega
    -- the block of this turn, whatever the later turns append
    have hhere : ∀ S : List UInt8, ∀ i, i < blockSize → pos ≤ pos / blockSize * blockSize + i →
        pos / blockSize * blockSize + i < pos + size → b.toList.getD i 0 =
          (slice b.toList (pos % blockSize) size ++ S).getD (pos / blockSize * blockSize + i - pos) 0 := by
      intro S i hi h1 h2
      rw [getD_append, if_pos (by omega), getD_slice, if_pos (by omega)]
      congr 1
      omega
    by_cases hend : remain = size
    · have hk0 : k = 0 := by rw [hbs] at *; omega
      subst hk0
      cases hloop
      refine ⟨_, rfl, by rw [hpiece, hend], fun num hlo hhi => ?_⟩
      obtain rfl : num = pos / blockSize := by rw [hbs] at *; omega
      refine ⟨b, hb, fun i hi h1 h2 => ?_⟩
      have := hhere [] i hi h1 (by omega)
      rwa [List.append_nil] at this
    · have hnext : (pos + size) / blockSize = pos / blockSize + 1 := by rw [hbs] at *; omega
      have hmul : (pos + size) = (pos / blockSize + 1) * blockSize := by rw [hbs] at *; omega
      rw [← hnext] at hloop
      obtain ⟨R, hout, hlen, hblocks⟩ := ih (by omega) (by rw [hnext]; rw [hbs] at *; omega) hloop
      refine ⟨slice b.toList (pos % blockSize) size ++ R, by rw [hout, List.append_assoc], ?_, fun num hlo hhi => ?_⟩
      · rw [List.length_append]
        omega
      · by_cases hnum : num = pos / blockSize
        · subst hnum
          refine ⟨b, hb, fun i hi h1 h2 => hhere R i hi h1 ?_⟩
          omega
        · obtain ⟨b', hb', hR⟩ := hblocks num (by omega) (by omega)
          refine ⟨b', hb', fun i hi h1 h2 => ?_⟩
          have hge : pos + size ≤ num * blockSize := by
            rw [hmul]
            exact Nat.mul_le_mul_right _ (by omega)
          rw [hR i hi (by omega) (by omega), getD_append, if_neg (by omega)]
          congr 1
          omega

lemma stores_of_read (hw : fd.ht.Wf) (hsmall : fd.length ≤ 2 ^ 31) {n : ℕ}
    (h : readPrimitive C fd 0 fd.length = .ok (n, F)) : Stores C fd F := by
  have hremain : (if (0 + fd.length) % 2 ^ 64 < fd.length ∨ 0 > fd.length then 0
      else if (0 + fd.length) % 2 ^ 64 > fd.length then fd.length - 0 else fd.length) = fd.length := by
    split_ifs <;> omega
  simp only [readPrimitive, hremain] at h
  split_ifs at h with h0
  · cases h
    exact ⟨⟨hw, fun num hnum => by simp at hnum⟩, h0, by simp⟩
  rw [readBlocks_eq (by omega) (by omega), ← blockSize_eq, bind_eq_ok] at h
  obtain ⟨s, hloop, he⟩ := h
  cases he
  obtain ⟨R, hout, hlen, hblocks⟩ := readLoop_ok hw (by omega) (by simp) hloop
  rw [List.nil_append] at hout
  rw [hout]
  refine ⟨⟨hw, fun num hnum => ?_⟩, hlen.symm, by omega⟩
  obtain ⟨b, hb, hR⟩ := hblocks num (by simp) (by omega)
  exact ⟨b, hb, fun i hi hx => by simpa using hR i hi (Nat.zero_le _) (by omega)⟩


def newFd (C : Crypto) (uuid : Option Uuid) (fek iv : Bytes 16) : TeeResult Fd := do
  let (ht, _, ws) ← createHtree C uuid fek iv
  pure ⟨ht, HostFile.empty.writeAll ws⟩

lemma newFd_opened {uuid : Option Uuid} {fek iv : Bytes 16} (h : newFd C uuid fek iv = .ok fd) : Opened C fd := by
  simp only [newFd, bind_eq_ok, pure, Except.pure] at h
  obtain ⟨⟨ht, hash, ws⟩, hcreate, he⟩ := h
  cases he
  exact Or.inr ⟨uuid, fek, iv, hash, ws, hcreate, rfl⟩

theorem ree_file_refines_byte_array (hC : C.Correct) (fd : Fd) (hopen : Opened C fd)
    (hsmall : fd.length ≤ 2 ^ 31) (n : ℕ) (F : List UInt8) (hread : readPrimitive C fd 0 fd.length = .ok (n, F))
    (ops : List Op) (hops : ∀ op ∈ ops, op.InRange) :
    ∃ fd', runOps C fd ops = .ok (fd', results F ops) := by
  obtain ⟨fd', hrun, -⟩ := (stores_of_read hopen.wf hsmall hread).ops hC hops
  exact ⟨fd', hrun⟩

def toyFd : Fd := (newFd toyCrypto none (zeroBytes 16) (zeroBytes 16)).get (by decide +kernel)

theorem ree_file_refines_byte_array_regrown : ∃ fd', runOps toyCrypto toyFd
    [.write 3 [1, 2, 3] (fun _ _ => zeroBytes 16), .truncate 4 (fun _ => zeroBytes 16),
      .truncate 6 (fun _ => zeroBytes 16), .read 2 9] = .ok (fd', [(4, [0, 1, 0, 0])]) := by
  refine ree_file_refines_byte_array toyCrypto_correct toyFd (newFd_opened (eq_ok_get _ _)) (by decide +kernel) 0 []
    (by decide +kernel) _ (fun op hop => ?_)
  simp only [List.mem_cons, List.not_mem_nil, or_false] at hop
  rcases hop with rfl | rfl | rfl | rfl <;> simp [Op.InRange]

end Optee.ReeFs
