import ClusterRegistry.Error

/-!
Permission to start a transaction.  Contexts derived from one background form a family that
shares a cancel flag; each of them keeps the earliest deadline set on the way to it.  Time is a
count of nanoseconds that the caller reads from its clock.
-/
namespace ClusterRegistry

structure Context where
  cancelled : Bool
  deadline : Option Nat
deriving DecidableEq, Repr

namespace Context

def background : Context :=
  ⟨false, none⟩

def withTimeout (context : Context) (now timeout : Nat) : Context :=
  { context with deadline := some ((context.deadline.getD (now + timeout)).min (now + timeout)) }

/-- Cancellation counts before the deadline, which is past once the clock has reached it. -/
def check (context : Context) (now : Nat) : Except StoreError Unit :=
  if context.cancelled then .error .cancelled
  else
    match context.deadline with
    | some deadline => if deadline ≤ now then .error .deadlineExceeded else .ok ()
    | none => .ok ()

end Context

/-- One derived context: the background that it comes from and its own deadline. -/
structure Descendant where
  family : Nat
  deadline : Option Nat
deriving DecidableEq, Repr

/-- Contexts in the order of their derivation, and the families whose flag is set. -/
structure Contexts where
  members : List Descendant
  cancelled : List Nat
deriving DecidableEq, Repr

namespace Contexts

def empty : Contexts :=
  ⟨[], []⟩

def context (contexts : Contexts) (member : Descendant) : Context :=
  ⟨contexts.cancelled.contains member.family, member.deadline⟩

def get? (contexts : Contexts) (index : Nat) : Option Context :=
  contexts.members[index]?.map contexts.context

def background (contexts : Contexts) : Contexts :=
  { contexts with members := contexts.members ++ [⟨contexts.members.length, none⟩] }

def clone? (contexts : Contexts) (index : Nat) : Option Contexts :=
  contexts.members[index]?.map fun member =>
    { contexts with members := contexts.members ++ [member] }

def withTimeout? (contexts : Contexts) (index now timeout : Nat) : Option Contexts :=
  contexts.members[index]?.map fun member =>
    let deadline := ((contexts.context member).withTimeout now timeout).deadline
    { contexts with members := contexts.members ++ [{ member with deadline }] }

def cancel? (contexts : Contexts) (index : Nat) : Option Contexts :=
  contexts.members[index]?.map fun member =>
    { contexts with cancelled := member.family :: contexts.cancelled }

end Contexts

end ClusterRegistry
