import Optee.BigInt.Destinations
import Optee.BigInt.ExtendedGcd
import Optee.Cryp.KeyHandles
import Optee.Cryp.KeySizes
import Optee.Entry.References
import Optee.FsHtree.CrashAtomicity
import Optee.FsHtree.HeapOrder
import Optee.FsHtree.NullHash
import Optee.Ldelf.Authentic
import Optee.Ldelf.Handles
import Optee.Ldelf.Symbols
import Optee.Locks.Wakeup
import Optee.Mm.FfaLifeCycle
import Optee.Mm.PoolRuns
import Optee.Mm.RegShmLifetime
import Optee.Mm.ShmMapping
import Optee.Pager.Nonces
import Optee.Pkcs11.KeyRuns
import Optee.Pkcs11.Reinitialization
import Optee.ReeFs.DirInvariant
import Optee.ReeFs.ShrinkCrash
import Optee.Rng.RingBuffer
import Optee.Rpc.PageList
import Optee.Rpmb.Interleaving
import Optee.RpmbFs.ByteAccess
import Optee.RpmbFs.WriteRead
import Optee.Sce.Confinement
import Optee.Spmc.Fragments
import Optee.Spmc.YieldingCall
import Optee.Storage.Rename
import Optee.Storage.SharedObjects
import Optee.Storage.Sharing
import Optee.Ta.ContextLifetime
import Optee.Ta.OpenSession
import Optee.Ta.SessionLifetime
import Optee.Ta.Timeout
import Optee.Tadb.Removal
import Optee.Vm.Kinds
import Optee.Vm.PageMap
import Optee.Vm.TableFlush
