import ClusterRegistry.Tree.Transaction

/-!
The settings of a store and the bounds within which it accepts them.
-/
namespace ClusterRegistry

/-- Whether a commit waits until its records are on durable media. -/
inductive Durability where
  | durable
  | relaxed
deriving DecidableEq, Repr

structure Config where
  /-- A log file that would grow past this size is left for a new one. -/
  rotationSize : Nat
  maxKeySize : Nat
  maxValueSize : Nat
  durability : Durability
deriving DecidableEq, Repr

namespace Config

def durable : Config :=
  ⟨64 * 1024 * 1024, 1024, 16 * 1024 * 1024, .durable⟩

def relaxed : Config :=
  { durable with durability := .relaxed }

def limits (config : Config) : Limits :=
  ⟨config.maxKeySize, config.maxValueSize⟩

def validate (config : Config) : Except StoreError Unit :=
  if config.rotationSize < 64 * 1024 then .error (.invalidConfig .rotationSize)
  else if config.maxKeySize = 0 ∨ 32 * 1024 < config.maxKeySize then
    .error (.invalidConfig .keySize)
  else if config.maxValueSize = 0 ∨ 128 * 1024 * 1024 < config.maxValueSize then
    .error (.invalidConfig .valueSize)
  else .ok ()

end Config

end ClusterRegistry
