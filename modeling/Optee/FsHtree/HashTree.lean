import Optee.Lib.HeapTree
import Optee.FsHtree.Images

/-! The hash tree that protects the blocks of a file. -/

namespace Optee.FsHtree

open Lib.ByteStrings Lib.HeapTree List

abbrev Uuid := Bytes 16

structure Crypto where
  digest : List UInt8 → Bytes 32
  authEnc : {n : ℕ} → (key iv : Bytes 16) → (aad : List UInt8) → Bytes n → Bytes n × Bytes 16
  authDec : {n : ℕ} → (key iv : Bytes 16) → (aad : List UInt8) → Bytes n → (tag : Bytes 16) →
    Option (Bytes n)
  fekEncrypt : Option Uuid → Bytes 16 → Bytes 16
  fekDecrypt : Option Uuid → Bytes 16 → Bytes 16

structure Crypto.Correct (C : Crypto) : Prop where
  authDec_authEnc : ∀ {n : ℕ} (key iv : Bytes 16) (aad : List UInt8) (plain : Bytes n),
    C.authDec key iv aad (C.authEnc key iv aad plain).1 (C.authEnc key iv aad plain).2 = some plain
  fekDecrypt_fekEncrypt : ∀ uuid fek, C.fekDecrypt uuid (C.fekEncrypt uuid fek) = fek

structure HNode where
  id : ℕ
  dirty : Bool
  blockUpdated : Bool
  node : NodeImage
  deriving DecidableEq

structure Htree where
  root : BinaryTree HNode
  head : HeadImage
  fek : Bytes 16
  imeta : Imeta
  dirty : Bool
  uuid : Option Uuid

variable {B : ℕ} (C : Crypto)

def rpcReadHead (f : HostFile B) (vers : Bool) : TeeResult HeadImage :=
  orError .corruptObject (f.read (.head vers))

def rpcReadNode (f : HostFile B) (nodeId : ℕ) (vers : Bool) : TeeResult NodeImage :=
  orError .corruptObject (f.read (.node (nodeId - 1) vers))

def rpcWriteHead (vers : Bool) (head : HeadImage) : HostWrite B := ⟨.head vers, head⟩

def rpcWriteNode (nodeId : ℕ) (vers : Bool) (node : NodeImage) : HostWrite B :=
  ⟨.node (nodeId - 1) vers, node⟩

def nodeIdToLevel (nodeId : ℕ) : TeeResult ℕ := do
  assert (nodeId ≠ 0 ∧ nodeId < 2 ^ 32 - 1)
  pure (nodeId.log2 + 1)

def directions (level nodeId : ℕ) : List Bool :=
  (List.range' 1 (level - 1)).map (fun n => nodeId.testBit (level - n - 1))

def findClosestNode (root : BinaryTree HNode) (nodeId : ℕ) : TeeResult (BinaryTree HNode) := do
  let level ← nodeIdToLevel nodeId
  pure (closest (directions level nodeId) root)

def findNode (root : BinaryTree HNode) (nodeId : ℕ) : TeeResult (Option HNode) := do
  let node ← findClosestNode root nodeId
  pure ((value? node).filter (fun n => n.id = nodeId))

def isRight (nodeId : ℕ) : Bool := nodeId.testBit 0

def HNode.new (nodeId : ℕ) : HNode := ⟨nodeId, false, false, NodeImage.zero⟩

def addNode (root : BinaryTree HNode) (n : ℕ) : TeeResult (BinaryTree HNode) := do
  match ← findClosestNode root n with
  | .nil => .error .generic
  | .node a l r =>
    if a.id = n then pure root
    else do
      assert (n / 2 = a.id)
      assert ((value? (child (isRight n) (.node a l r))).isNone)
      pure (graft (heapPath n) (.node (HNode.new n) .nil .nil) root)

def getNode (ht : Htree) (create : Bool) (nodeId : ℕ) : TeeResult Htree := do
  match ← findClosestNode ht.root nodeId with
  | .nil => .error .generic
  | .node a _ _ =>
    if a.id = nodeId then pure ht
    else if !create then .error .generic
    else do
      let root ← (List.range' (a.id + 1) (nodeId - a.id)).foldlM addNode ht.root
      let imeta := if ht.imeta.maxNodeId.toNat < nodeId then
        { ht.imeta with maxNodeId := UInt32.ofNat nodeId } else ht.imeta
      pure { ht with root, imeta }

def updateNode (nodeId : ℕ) (f : HNode → HNode) (root : BinaryTree HNode) : BinaryTree HNode :=
  modify (heapPath nodeId) f root

def getIdxFromCounter (counter0 counter1 : UInt32) : Option Bool :=
  if counter0 % 2 = 0 then
    if counter1 % 2 = 0 then some false
    else if counter0 > counter1 then some false
    else some true
  else if counter1 % 2 = 1 then some true
  else none

def initHeadFromData (f : HostFile B) : Option (Bytes 32) → TeeResult (NodeImage × HeadImage)
  | some hash => do
    let node0 ← rpcReadNode f 1 false
    if node0.hash = hash then do
      let head ← rpcReadHead f false
      pure (node0, head)
    else do
      let node1 ← rpcReadNode f 1 true
      if node1.hash = hash then do
        let head ← rpcReadHead f true
        pure (node1, head)
      else .error .security
  | none => do
    let head0 ← rpcReadHead f false
    let head1 ← rpcReadHead f true
    match getIdxFromCounter head0.counter head1.counter with
    | none => .error .security
    | some idx => do
      let node ← rpcReadNode f 1 idx
      pure (node, if idx then head1 else head0)

def nodeHash? (t : BinaryTree HNode) : Option (Bytes 32) := (value? t).map (fun n => n.node.hash)

def optBytes (h : Option (Bytes 32)) : List UInt8 := h.elim [] List.Vector.toList

def hashInput (n : NodeImage) (metadata : Option Meta) (left right : Option (Bytes 32)) :
    List UInt8 :=
  n.iv.toList ++ n.tag.toList ++ leBytes 2 n.flags.toNat ++ metadata.elim [] Meta.bytes ++
    optBytes left ++ optBytes right

lemma hashInput_inj {n n' : NodeImage} {d d' : Option Meta} {l l' r r' : Option (Bytes 32)}
    (hd : d.isSome = d'.isSome) (h : hashInput n d l r = hashInput n' d' l' r') :
    n.iv = n'.iv ∧ n.tag = n'.tag ∧ n.flags = n'.flags ∧ d = d' ∧
      optBytes l ++ optBytes r = optBytes l' ++ optBytes r' := by
  simp only [hashInput, append_assoc] at h
  obtain ⟨hiv, h⟩ := append_inj h (by simp)
  obtain ⟨htag, h⟩ := append_inj h (by simp)
  obtain ⟨hflags, h⟩ := append_inj h (by simp)
  have hlen : (d.elim [] Meta.bytes).length = (d'.elim [] Meta.bytes).length := by
    cases d <;> cases d' <;> simp_all
  obtain ⟨hmeta, h⟩ := append_inj h hlen
  refine ⟨Subtype.ext hiv, Subtype.ext htag, ?_, ?_, h⟩
  · exact BitVec.eq_of_toNat_eq (leBytes_injective (n.flags.isLt.trans_eq (by norm_num))
      (n'.flags.isLt.trans_eq (by norm_num)) hflags)
  · cases d with
    | none => cases d' with
      | none => rfl
      | some m' => simp at hd
    | some m => cases d' with
      | none => simp at hd
      | some m' =>
        have hm : m.length.toNat = m'.length.toNat :=
          leBytes_injective (m.length.toNat_lt.trans_eq (by norm_num))
            (m'.length.toNat_lt.trans_eq (by norm_num)) hmeta
        cases m
        simp_all [UInt64.toNat_inj]

def calcNodeHash (n : NodeImage) (metadata : Option Meta) (l r : BinaryTree HNode) : Bytes 32 :=
  C.digest (hashInput n metadata (nodeHash? l) (nodeHash? r))

def headAad (rootHash : Bytes 32) (head : HeadImage) : List UInt8 :=
  rootHash.toList.take 16 ++ leBytes 4 head.counter.toNat ++ head.encFek.toList ++ head.iv.toList

def nodeAad (encFek iv : Bytes 16) : List UInt8 := encFek.toList ++ iv.toList

def verifyRoot (uuid : Option Uuid) (rootHash : Bytes 32) (head : HeadImage) :
    TeeResult (Bytes 16 × Imeta) := do
  let fek := C.fekDecrypt uuid head.encFek
  let plain ← orError .corruptObject
    (C.authDec fek head.iv (headAad rootHash head) head.imeta head.tag)
  pure (fek, Imeta.ofBytes plain)

def loadNode (f : HostFile B) (ht : Htree) (nodeId : ℕ) : TeeResult Htree := do
  match ← findNode ht.root (nodeId / 2) with
  | none => .error .generic
  | some parent => do
    let image ← rpcReadNode f nodeId (parent.node.version (committedChild (isRight nodeId)))
    let ht ← getNode ht true nodeId
    pure { ht with root := updateNode nodeId (fun nc => { nc with node := image }) ht.root }

def initTreeFromData (f : HostFile B) (ht : Htree) : TeeResult Htree :=
  (List.range' 2 (ht.imeta.maxNodeId.toNat - 1)).foldlM (loadNode f) ht

def verifyNodes (metadata : Option Meta) : BinaryTree HNode → TeeResult Unit
  | .nil => pure ()
  | .node n l r => do
    verifyNodes none l
    verifyNodes none r
    if calcNodeHash C n.node metadata l r = n.node.hash then pure () else .error .corruptObject

def verifyTree (ht : Htree) : TeeResult Unit := verifyNodes C (some ht.imeta.metadata) ht.root

def openHtree (f : HostFile B) (hash : Option (Bytes 32)) (uuid : Option Uuid) :
    TeeResult Htree := do
  let (node, head) ← initHeadFromData f hash
  let (fek, imeta) ← verifyRoot C uuid node.hash head
  let root := .node { HNode.new 1 with node } .nil .nil
  let ht ← initTreeFromData f ⟨root, head, fek, imeta, false, uuid⟩
  verifyTree C ht
  pure ht

def HNode.flush (n : HNode) (metadata : Option Meta) (l r : BinaryTree HNode) : HNode :=
  { n with
    dirty := false
    blockUpdated := false
    node := { n.node with hash := calcNodeHash C n.node metadata l r } }

def syncNodes (parent : HNode) :
    BinaryTree HNode → TeeResult (BinaryTree HNode × HNode × List (HostWrite B))
  | .nil => pure (.nil, parent, [])
  | .node n₀ l₀ r₀ => do
    let (l, n₁, wl) ← syncNodes n₀ l₀
    let (r, n, wr) ← syncNodes n₁ r₀
    assert (n.blockUpdated ≤ n.dirty)
    if n.dirty then
      let f := committedChild (isRight n.id)
      let parent := { parent with dirty := true, node := parent.node.flip f }
      let node := n.flush C none l r
      pure (.node node l r, parent,
        wl ++ wr ++ [rpcWriteNode n.id (parent.node.version f) node.node])
    else pure (.node n l r, parent, wl ++ wr)

def syncRoot (counter : UInt32) (metadata : Meta) :
    BinaryTree HNode → TeeResult (BinaryTree HNode × List (HostWrite B))
  | .nil => pure (.nil, [])
  | .node n₀ l₀ r₀ => do
    let (l, n₁, wl) ← syncNodes C n₀ l₀
    let (r, n, wr) ← syncNodes C n₁ r₀
    assert (n.blockUpdated ≤ n.dirty)
    if n.dirty then
      let node := n.flush C (some metadata) l r
      pure (.node node l r, wl ++ wr ++ [rpcWriteNode n.id (counter % 2 = 0) node.node])
    else pure (.node n l r, wl ++ wr)

def rootHash (root : BinaryTree HNode) : Bytes 32 := (nodeHash? root).getD (zeroBytes 32)

def updateRoot (ht : Htree) (iv : Bytes 16) : Htree :=
  let head := { ht.head with counter := ht.head.counter + 1, iv }
  let enc := C.authEnc ht.fek iv (headAad (rootHash ht.root) head) ht.imeta.bytes
  { ht with head := { head with imeta := enc.1, tag := enc.2 } }

def syncToStorage (ht : Htree) (hash : Bytes 32) (iv : Bytes 16) :
    TeeResult (Htree × Bytes 32 × List (HostWrite B)) := do
  if !ht.dirty then pure (ht, hash, [])
  else do
    let (root, ws) ← syncRoot C ht.head.counter ht.imeta.metadata ht.root
    let ht := updateRoot C { ht with root } iv
    let ws := ws ++ [rpcWriteHead (ht.head.counter % 2 = 1) ht.head]
    pure ({ ht with dirty := false }, rootHash ht.root, ws)

def initRootNode (metadata : Meta) : BinaryTree HNode :=
  let image := { NodeImage.zero with hash := calcNodeHash C NodeImage.zero (some metadata) .nil .nil }
  .node { HNode.new 1 with dirty := true, node := image } .nil .nil

def newHtree (uuid : Option Uuid) (fek : Bytes 16) : Htree :=
  ⟨initRootNode C Imeta.zero.metadata, { HeadImage.zero with encFek := C.fekEncrypt uuid fek }, fek,
    Imeta.zero, true, uuid⟩

def createHtree (uuid : Option Uuid) (fek iv : Bytes 16) :
    TeeResult (Htree × Bytes 32 × List (HostWrite B)) := do
  let (ht, hash, ws) ← syncToStorage C (newHtree C uuid fek) (zeroBytes 32) iv
  pure (ht, hash, ws ++ [rpcWriteHead false HeadImage.zero])

def metaSetDirty (ht : Htree) : Htree :=
  { ht with dirty := true, root := updateNode 1 (fun n => { n with dirty := true }) ht.root }

def setMeta (ht : Htree) (metadata : Meta) : Htree :=
  metaSetDirty { ht with imeta := { ht.imeta with metadata } }

def getBlockNode (ht : Htree) (create : Bool) (blockNum : ℕ) : TeeResult Htree :=
  getNode ht create (blockNum + 1)

def nodeAt (root : BinaryTree HNode) (nodeId : ℕ) : TeeResult HNode := orError .generic (at? root nodeId)

def HNode.nextBlock (n : HNode) : HNode :=
  if n.blockUpdated then n else { n with node := n.node.flip committedBlock }

def writeBlock (ht : Htree) (blockNum : ℕ) (block : Bytes B) (iv : Bytes 16) :
    TeeResult (Htree × List (HostWrite B)) := do
  let ht ← getBlockNode ht true blockNum
  let n := (← nodeAt ht.root (blockNum + 1)).nextBlock
  let enc := C.authEnc ht.fek iv (nodeAad ht.head.encFek iv) block
  let n := { n with dirty := true, blockUpdated := true, node := { n.node with iv, tag := enc.2 } }
  let w : HostWrite B := ⟨.block blockNum (n.node.version committedBlock), enc.1⟩
  pure ({ ht with dirty := true, root := updateNode (blockNum + 1) (fun _ => n) ht.root }, [w])

def readBlock (f : HostFile B) (ht : Htree) (blockNum : ℕ) : TeeResult (Bytes B) := do
  let ht ← getBlockNode ht false blockNum
  let n ← nodeAt ht.root (blockNum + 1)
  let crypt ← orError .corruptObject (f.read (.block blockNum (n.node.version committedBlock)))
  orError .corruptObject
    (C.authDec ht.fek n.node.iv (nodeAad ht.head.encFek n.node.iv) crypt n.node.tag)

def dropLastNode (ht : Htree) : TeeResult Htree := do
  let maxId := ht.imeta.maxNodeId.toNat
  match ← findClosestNode ht.root maxId with
  | .nil => .error .panic
  | .node a l r => do
    assert (a.id = maxId)
    assert ((value? l).isNone ∧ (value? r).isNone)
    assert (maxId ≠ 1)
    let imeta := { ht.imeta with maxNodeId := ht.imeta.maxNodeId - 1 }
    pure { ht with root := graft (heapPath maxId) .nil ht.root, imeta, dirty := true }

def dropNodes : ℕ → Htree → TeeResult Htree
  | 0, ht => pure ht
  | k + 1, ht => dropLastNode ht >>= dropNodes k

def truncateHtree (ht : Htree) (blockNum : ℕ) : TeeResult Htree :=
  dropNodes (ht.imeta.maxNodeId.toNat - (blockNum + 1)) ht

end Optee.FsHtree
