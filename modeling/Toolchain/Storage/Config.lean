import Toolchain.Storage.DarkLaunch
import Toolchain.Storage.Sharding

/-!
# Config — the driver tree of a configuration

By induction over the nested configuration, its driver refines the committed contents, and is exact if
no leaf fails, every digest has a shard, chunks have a size, and there is no dark launch.
-/

namespace Toolchain.Storage

open Lib

mutual

/-- A configuration of a storage.  The leaves are those of `Leaf`; `small` is a small storage behind
the adapter. -/
inductive Config (H : Type)
  | leaf (leaf : Leaf H)
  | small (storage : SmallConfig H)
  | sizeSplit (size : Nat) (smaller larger : Config H)
  | sharded (count : Nat) (shards : Fin count → Config H) (ring : Ring H count)
  | readCache (fast : SmallConfig H) (slow : Config H)
  | existenceCache (maxEntries : Nat) (underlying : Config H)
  | metered (inner : Config H)
  | darkLaunch (storage1 storage2 : Config H) (storage2InstanceNames : List Text) (writeToSecondary : Bool)
  | chunking (writeChunkSize : Nat) (underlying : Config H)

inductive SmallConfig (H : Type)
  | redisDirect (faults : Nat → Option (Fault H))
  | sharded (count : Nat) (shards : Fin count → Config H) (ring : Ring H count)
  | null | alwaysErrors

end

variable {H : Type} [DecidableEq H]

mutual

def Config.make : Config H → Driver H
  | .leaf leaf => leaf.driver
  | .small storage => smallBlobStorageAdapter storage.make
  | .sizeSplit size smaller larger => sizeSplit size smaller.make larger.make
  | .sharded _ shards ring => sharded (fun shard => (shards shard).make) ring
  | .readCache fast slow => smallBlobStorageAdapter (fastSlow fast.make slow.make)
  | .existenceCache maxEntries underlying => existenceCache maxEntries underlying.make
  | .metered inner => metered inner.make
  | .darkLaunch storage1 storage2 names writeToSecondary =>
    darkLaunch names writeToSecondary storage1.make storage2.make
  | .chunking writeChunkSize underlying => chunking writeChunkSize underlying.make

def SmallConfig.make : SmallConfig H → SmallDriver H
  | .redisDirect faults => (redisDirect faults).smallDriver
  | .sharded _ shards ring => blobStorageAdapter (sharded (fun shard => (shards shard).make) ring)
  | .null => nullStorage
  | .alwaysErrors => alwaysErrorsStorage

end

def makeStorage (sha256 : Bytes → H) (config : Config H) (verifyDigests : Bool) : Driver H :=
  match verifyDigests with
  | true => writeDigestVerifier sha256 config.make
  | false => config.make

/-! ## Every tree refines -/

mutual

def Config.Exact : Config H → Prop
  | .leaf leaf => ∀ n, leaf.faults n = none
  | .small storage => storage.Exact
  | .sizeSplit _ smaller larger => smaller.Exact ∧ larger.Exact
  | .sharded _ shards ring => (∀ digest, ring.replicas digest ≠ []) ∧ ∀ shard, (shards shard).Exact
  | .readCache fast slow => fast.Exact ∧ slow.Exact
  | .existenceCache _ underlying => underlying.Exact
  | .metered inner => inner.Exact
  | .darkLaunch _ _ _ _ => False
  | .chunking writeChunkSize underlying => 0 < writeChunkSize ∧ underlying.Exact

def SmallConfig.Exact : SmallConfig H → Prop
  | .redisDirect faults => ∀ n, faults n = none
  | .sharded _ shards ring => (∀ digest, ring.replicas digest ≠ []) ∧ ∀ shard, (shards shard).Exact
  | .null => False
  | .alwaysErrors => False

end

mutual

def Config.refines {faulty : Prop} : (config : Config H) → faulty ∨ config.Exact →
    Refines faulty config.make
  | .leaf leaf, h => leaf.refines h
  | .small storage, h => smallBlobStorageAdapterRefines (storage.refines h)
  | .sizeSplit size smaller larger, h =>
    sizeSplitRefines (smaller.refines (or_and_left.1 h).1) (larger.refines (or_and_left.1 h).2) size
  | .sharded _ shards ring, h =>
    Sharding.shardedRefines
      (fun shard => (shards shard).refines ((or_and_left.1 h).2.imp id fun h => h shard)) ring
      (or_and_left.1 h).1
  | .readCache fast slow, h =>
    smallBlobStorageAdapterRefines
      (fastSlowRefines (fast.refines (or_and_left.1 h).1) (slow.refines (or_and_left.1 h).2))
  | .existenceCache maxEntries underlying, h => existenceCacheRefines (underlying.refines h) maxEntries
  | .metered inner, h => meteredRefines (inner.refines h)
  | .darkLaunch storage1 storage2 names writeToSecondary, h =>
    darkLaunchRefines (h.resolve_right id) (storage1.refines (.inl (h.resolve_right id)))
      (storage2.refines (.inl (h.resolve_right id))) names writeToSecondary
  | .chunking _ underlying, h => chunkingRefines (underlying.refines (or_and_left.1 h).2)
    (or_and_left.1 h).1

def SmallConfig.refines {faulty : Prop} : (config : SmallConfig H) → faulty ∨ config.Exact →
    SmallRefines faulty config.make
  | .redisDirect faults, h => (redisDirect faults).smallRefines h
  | .sharded _ shards ring, h =>
    blobStorageAdapterRefines (Sharding.shardedRefines
      (fun shard => (shards shard).refines ((or_and_left.1 h).2.imp id fun h => h shard)) ring
      (or_and_left.1 h).1)
  | .null, h => nullStorageRefines (h.resolve_right id)
  | .alwaysErrors, h => alwaysErrorsStorageRefines (h.resolve_right id)

end

end Toolchain.Storage
