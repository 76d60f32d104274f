import Mathlib.Data.List.Induction
import ClusterRegistry.Context

/-!
Families of contexts.  Contexts are made one after another, each as a background or out of an
earlier one, so that each goes back to one background by one chain.  Over any sequence of steps a
context is cancelled exactly if one that goes back to the same background was, before or after it
was made; and its deadline is the earliest of those set along its own chain.
-/
namespace ClusterRegistry

namespace Context

variable {context : Context} {deadlines : List Nat}

/-- A time limit counts along with those before it. -/
theorem deadline_withTimeout (earliest : context.deadline = deadlines.min?) (now timeout : Nat) :
    (context.withTimeout now timeout).deadline = ((now + timeout) :: deadlines).min? := by
  rw [withTimeout, earliest, List.min?_cons]
  cases deadlines.min? with
  | none => exact congrArg some (Nat.min_self _)
  | some earlier => exact congrArg some (Nat.min_comm _ _)

/-- Whether the earliest deadline has come is whether any has. -/
theorem check_eq (earliest : context.deadline = deadlines.min?) (now : Nat) :
    context.check now =
      if context.cancelled then .error .cancelled
      else if ∃ deadline ∈ deadlines, deadline ≤ now then .error .deadlineExceeded
      else .ok () := by
  rw [check, earliest]
  cases least : deadlines.min? with
  | none =>
    rw [List.min?_eq_none_iff] at least
    subst least
    simp
  | some earliest =>
    obtain ⟨member, below⟩ := List.min?_eq_some_iff.mp least
    have come : (∃ deadline ∈ deadlines, deadline ≤ now) ↔ earliest ≤ now := by
      constructor
      · intro given
        obtain ⟨deadline, inside, past⟩ := given
        exact Nat.le_trans (below deadline inside) past
      · exact fun past => ⟨earliest, member, past⟩
    simp only [come]

end Context

namespace Contexts

/-- Contexts are numbered in the order in which they are made. -/
inductive Step where
  | background
  | clone (parent : Nat)
  | withTimeout (parent now timeout : Nat)
  | cancel (member : Nat)
deriving DecidableEq

/-- How a context was made. -/
inductive Origin where
  | background
  | clone (parent : Nat)
  | withTimeout (parent deadline : Nat)

/-- The context that a step acts on. -/
def Step.subject? : Step → Option Nat
  | background => none
  | clone parent | withTimeout parent _ _ => some parent
  | cancel member => some member

def Step.origin? : Step → Option Origin
  | background => some .background
  | clone parent => some (.clone parent)
  | withTimeout parent now timeout => some (.withTimeout parent (now + timeout))
  | cancel _ => none

/-- How each context was made, in the order of their numbers. -/
def origins (steps : List Step) : List Origin :=
  steps.filterMap Step.origin?

/-- No step acts on a context that is not there yet. -/
def Sound (steps : List Step) : Prop :=
  ∀ place, ∀ inside : place < steps.length, ∀ subject ∈ steps[place].subject?,
    subject < (origins (steps.take place)).length

instance Sound.decidable (steps : List Step) : Decidable (Sound steps) :=
  inferInstanceAs (Decidable (∀ place, ∀ inside : place < steps.length,
    ∀ subject ∈ steps[place].subject?, subject < (origins (steps.take place)).length))

def step? (contexts : Contexts) : Step → Option Contexts
  | .background => some contexts.background
  | .clone parent => contexts.clone? parent
  | .withTimeout parent now timeout => contexts.withTimeout? parent now timeout
  | .cancel member => contexts.cancel? member

def run? (steps : List Step) : Option Contexts :=
  steps.foldlM step? empty

/-- The chain that leads from a background to a context, with the deadlines set along it. -/
inductive Descends (origins : List Origin) (root : Nat) : Nat → List Nat → Prop where
  | background (made : origins[root]? = some .background) : Descends origins root root []
  | clone {index parent : Nat} {deadlines : List Nat}
      (made : origins[index]? = some (.clone parent))
      (chain : Descends origins root parent deadlines) : Descends origins root index deadlines
  | withTimeout {index parent deadline : Nat} {deadlines : List Nat}
      (made : origins[index]? = some (.withTimeout parent deadline))
      (chain : Descends origins root parent deadlines) :
      Descends origins root index (deadline :: deadlines)

namespace Descends

variable {made : List Origin} {root other index : Nat} {deadlines others : List Nat}

theorem unique (chain : Descends made root index deadlines)
    (again : Descends made other index others) : other = root ∧ others = deadlines := by
  induction chain generalizing other others with
  | background here =>
    cases again with
    | background => exact ⟨rfl, rfl⟩
    | clone there => cases here.symm.trans there
    | withTimeout there => cases here.symm.trans there
  | clone here _ ih =>
    cases again with
    | background there => cases here.symm.trans there
    | clone there chain =>
      cases here.symm.trans there
      exact ih chain
    | withTimeout there => cases here.symm.trans there
  | withTimeout here _ ih =>
    cases again with
    | background there => cases here.symm.trans there
    | clone there => cases here.symm.trans there
    | withTimeout there chain =>
      cases here.symm.trans there
      obtain ⟨same, earlier⟩ := ih chain
      exact ⟨same, congrArg _ earlier⟩

theorem append (chain : Descends made root index deadlines) (later : List Origin) :
    Descends (made ++ later) root index deadlines := by
  have kept {place : Nat} {origin : Origin} (here : made[place]? = some origin) :
      (made ++ later)[place]? = some origin := by
    obtain ⟨inside, _⟩ := List.getElem?_eq_some_iff.mp here
    rwa [List.getElem?_append_left inside]
  induction chain with
  | background here => exact .background (kept here)
  | clone here _ ih => exact .clone (kept here) ih
  | withTimeout here _ ih => exact .withTimeout (kept here) ih

end Descends

/-- What steps have made of the contexts. -/
structure Agrees (steps : List Step) (contexts : Contexts) : Prop where
  count : contexts.members.length = (origins steps).length
  chain : ∀ index member, contexts.members[index]? = some member →
    ∃ deadlines, Descends (origins steps) member.family index deadlines ∧
      member.deadline = deadlines.min?
  named : ∀ index, Step.cancel index ∈ steps → index < contexts.members.length
  cancelled : ∀ family, family ∈ contexts.cancelled ↔ ∃ index member,
    Step.cancel index ∈ steps ∧ contexts.members[index]? = some member ∧ member.family = family

theorem agrees_empty : Agrees [] empty where
  count := rfl
  chain := nofun
  named := nofun
  cancelled family := by simp [empty]

private theorem origins_snoc (steps : List Step) (step : Step) :
    origins (steps ++ [step]) = origins steps ++ step.origin?.toList := by
  rw [origins, List.filterMap_append]
  cases made : step.origin? <;> simp [origins, made]

private theorem getElem?_snoc {members : List Descendant} {last found : Descendant} {index : Nat}
    (there : (members ++ [last])[index]? = some found) :
    members[index]? = some found ∨ index = members.length ∧ last = found := by
  rcases Nat.lt_trichotomy index members.length with inside | rfl | beyond
  · rw [List.getElem?_append_left inside] at there
    exact .inl there
  · rw [List.getElem?_concat_length] at there
    exact .inr ⟨rfl, Option.some.inj there⟩
  · rw [List.getElem?_eq_none (by simp; omega)] at there
    contradiction

namespace Agrees

variable {steps : List Step} {contexts : Contexts} {member : Descendant} {deadlines : List Nat}

/-- One more context changes nothing about those that are there. -/
theorem derive (agrees : Agrees steps contexts) {step : Step} {origin : Origin}
    (made : step.origin? = some origin)
    (chain : Descends (origins steps ++ [origin]) member.family contexts.members.length deadlines)
    (deadline : member.deadline = deadlines.min?) :
    Agrees (steps ++ [step]) { contexts with members := contexts.members ++ [member] } := by
  have longer : origins (steps ++ [step]) = origins steps ++ [origin] := by
    rw [origins_snoc, made]
    rfl
  have cancels (index : Nat) : Step.cancel index ∈ steps ++ [step] ↔ Step.cancel index ∈ steps := by
    rw [List.mem_append, List.mem_singleton]
    refine or_iff_left fun same => ?_
    subst same
    cases made
  refine ⟨?_, ?_, ?_, ?_⟩
  · rw [longer, List.length_append, List.length_append, agrees.count]
    rfl
  · intro index found there
    rw [longer]
    rcases getElem?_snoc there with old | ⟨rfl, rfl⟩
    · obtain ⟨earlier, chain, same⟩ := agrees.chain index found old
      exact ⟨earlier, chain.append _, same⟩
    · exact ⟨deadlines, chain, deadline⟩
  · intro index cancel
    have inside := agrees.named index ((cancels index).mp cancel)
    rw [List.length_append]
    exact Nat.lt_add_right _ inside
  · intro family
    rw [agrees.cancelled family]
    refine exists_congr fun index => exists_congr fun found => ?_
    rw [cancels index]
    refine and_congr_right fun cancel => ?_
    -- what a step has cancelled was there before, so it is not the new context
    rw [List.getElem?_append_left (agrees.named index cancel)]

theorem cancel (agrees : Agrees steps contexts) {index : Nat}
    (there : contexts.members[index]? = some member) :
    Agrees (steps ++ [.cancel index])
      { contexts with cancelled := member.family :: contexts.cancelled } := by
  have same : origins (steps ++ [.cancel index]) = origins steps := by
    rw [origins_snoc]
    exact List.append_nil _
  have cancels (other : Nat) : Step.cancel other ∈ steps ++ [.cancel index] ↔
      Step.cancel other ∈ steps ∨ other = index := by
    simp
  refine ⟨?_, ?_, ?_, ?_⟩
  · rw [same]
    exact agrees.count
  · rw [same]
    exact agrees.chain
  · intro other cancel
    rcases (cancels other).mp cancel with earlier | rfl
    · exact agrees.named other earlier
    · exact (List.getElem?_eq_some_iff.mp there).1
  · intro family
    rw [List.mem_cons, agrees.cancelled family]
    constructor
    · intro given
      rcases given with rfl | ⟨other, found, earlier, here, same⟩
      · exact ⟨index, member, (cancels index).mpr (.inr rfl), there, rfl⟩
      · exact ⟨other, found, (cancels other).mpr (.inl earlier), here, same⟩
    · intro given
      obtain ⟨other, found, cancel, here, same⟩ := given
      rcases (cancels other).mp cancel with earlier | rfl
      · exact .inr ⟨other, found, earlier, here, same⟩
      · cases here.symm.trans there
        exact .inl same.symm

/-- A flag is set by a step that cancels any context of its family. -/
theorem mem_cancelled (agrees : Agrees steps contexts) (family : Nat) :
    family ∈ contexts.cancelled ↔ ∃ index deadlines, Step.cancel index ∈ steps ∧
      Descends (origins steps) family index deadlines := by
  rw [agrees.cancelled family]
  constructor
  · intro given
    obtain ⟨index, found, cancel, there, rfl⟩ := given
    obtain ⟨deadlines, chain, _⟩ := agrees.chain index found there
    exact ⟨index, deadlines, cancel, chain⟩
  · intro given
    obtain ⟨index, deadlines, cancel, chain⟩ := given
    have there := List.getElem?_eq_getElem (agrees.named index cancel)
    obtain ⟨_, again, _⟩ := agrees.chain index _ there
    exact ⟨index, _, cancel, there, (chain.unique again).1⟩

/-- One step: it has a context to act on, and what it makes agrees with the steps so far. -/
theorem next (agrees : Agrees steps contexts) {step : Step}
    (present : ∀ subject ∈ step.subject?, subject < (origins steps).length) :
    ∃ next, contexts.step? step = some next ∧ Agrees (steps ++ [step]) next := by
  have found {index : Nat} (named : step.subject? = some index) :
      ∃ member deadlines, contexts.members[index]? = some member ∧
        Descends (origins steps) member.family index deadlines ∧
        member.deadline = deadlines.min? := by
    have inside := present index named
    rw [← agrees.count] at inside
    have there := List.getElem?_eq_getElem inside
    obtain ⟨deadlines, chain, same⟩ := agrees.chain index _ there
    exact ⟨_, deadlines, there, chain, same⟩
  have last (origin : Origin) : (origins steps ++ [origin])[contexts.members.length]? = some origin := by
    rw [agrees.count, List.getElem?_concat_length]
  cases step with
  | background => exact ⟨_, rfl, agrees.derive rfl (.background (last _)) rfl⟩
  | clone parent =>
    obtain ⟨member, deadlines, there, chain, same⟩ := found rfl
    refine ⟨_, by rw [step?, clone?, there]; rfl, ?_⟩
    exact agrees.derive rfl (.clone (last _) (chain.append _)) same
  | withTimeout parent now timeout =>
    obtain ⟨member, deadlines, there, chain, same⟩ := found rfl
    refine ⟨_, by rw [step?, withTimeout?, there]; rfl, ?_⟩
    refine agrees.derive rfl (.withTimeout (last _) (chain.append _)) ?_
    exact (contexts.context member).deadline_withTimeout same now timeout
  | cancel index =>
    obtain ⟨member, deadlines, there, _, _⟩ := found rfl
    exact ⟨_, by rw [step?, cancel?, there]; rfl, agrees.cancel there⟩

end Agrees

theorem Sound.parts {steps : List Step} {step : Step} (sound : Sound (steps ++ [step])) :
    Sound steps ∧ ∀ subject ∈ step.subject?, subject < (origins steps).length := by
  constructor
  · intro place inside subject named
    have there := sound place (by rw [List.length_append]; exact Nat.lt_add_right _ inside) subject
    rw [List.getElem_append_left inside, List.take_append_of_le_length (Nat.le_of_lt inside)] at there
    exact there named
  · intro subject named
    have last := sound steps.length (by simp) subject
    rw [List.getElem_concat_length, List.take_left] at last
    · exact last named
    · rfl

/-- A run of any length: every step finds its context. -/
theorem agrees_run {steps : List Step} (sound : Sound steps) :
    ∃ contexts, run? steps = some contexts ∧ Agrees steps contexts := by
  -- the last step acts on what all others have made
  induction steps using List.reverseRecOn with
  | nil => exact ⟨empty, rfl, agrees_empty⟩
  | append_singleton steps step ih =>
    obtain ⟨earlier, present⟩ := sound.parts
    obtain ⟨contexts, ran, agrees⟩ := ih earlier
    obtain ⟨next, stepped, later⟩ := agrees.next present
    refine ⟨next, ?_, later⟩
    rw [run?] at ran ⊢
    rw [List.foldlM_append, ran]
    simpa using stepped

/-- Of a context: it goes back to one background by one chain.  It is cancelled exactly if a step
cancels one that goes back to the same background; its deadline is the earliest of its chain; and a
check says that it is cancelled, or else that a deadline of its chain has come. -/
theorem run_families {steps : List Step} (sound : Sound steps) :
    ∃ contexts, run? steps = some contexts ∧
      contexts.members.length = (origins steps).length ∧
      ∀ index < (origins steps).length, ∃ root deadlines context,
        Descends (origins steps) root index deadlines ∧
        (∀ other others, Descends (origins steps) other index others →
          other = root ∧ others = deadlines) ∧
        contexts.get? index = some context ∧
        (context.cancelled = true ↔ ∃ member others, Step.cancel member ∈ steps ∧
          Descends (origins steps) root member others) ∧
        context.deadline = deadlines.min? ∧
        ∀ now, context.check now =
          if context.cancelled then .error .cancelled
          else if ∃ deadline ∈ deadlines, deadline ≤ now then .error .deadlineExceeded
          else .ok () := by
  obtain ⟨contexts, ran, agrees⟩ := agrees_run sound
  refine ⟨contexts, ran, agrees.count, fun index inside => ?_⟩
  rw [← agrees.count] at inside
  have there := List.getElem?_eq_getElem inside
  generalize contexts.members[index] = member at there
  obtain ⟨deadlines, chain, earliest⟩ := agrees.chain index member there
  refine ⟨member.family, deadlines, contexts.context member, chain, fun _ _ => chain.unique, ?_, ?_,
    earliest, Context.check_eq earliest⟩
  · rw [get?, there]
    rfl
  · exact List.contains_iff_mem.trans (agrees.mem_cancelled member.family)

/-- A cancelled context with a time limit: what is derived later from it or from its background is
cancelled too, and what comes from another background is not. -/
theorem run_families_of_two_families :
    let steps : List Step := [.background, .clone 0, .withTimeout 1 5 10, .background, .cancel 2,
      .clone 0, .withTimeout 2 20 3, .withTimeout 3 0 7]
    Sound steps ∧ ∃ contexts, run? steps = some contexts ∧
      contexts.get? 4 = some ⟨true, none⟩ ∧ contexts.get? 5 = some ⟨true, some 15⟩ ∧
      contexts.get? 6 = some ⟨false, some 7⟩ := by
  intro steps
  have sound : Sound steps := by decide
  obtain ⟨contexts, ran, _, families⟩ := run_families sound
  have background : Descends (origins steps) 0 0 [] := .background rfl
  have limited : Descends (origins steps) 0 2 [15] := .withTimeout rfl (.clone rfl background)
  have later : Descends (origins steps) 0 5 [23, 15] := .withTimeout rfl limited
  have stranger : Descends (origins steps) 3 6 [7] := .withTimeout rfl (.background rfl)
  have cancelled : ∃ member others, Step.cancel member ∈ steps ∧
      Descends (origins steps) 0 member others := ⟨2, [15], by decide, limited⟩
  have other : ¬∃ member others, Step.cancel member ∈ steps ∧
      Descends (origins steps) 3 member others := by
    intro given
    obtain ⟨member, others, cancel, chain⟩ := given
    have named : member = 2 := by simpa [steps] using cancel
    subst named
    cases (limited.unique chain).1
  have shows {index root : Nat} {deadlines : List Nat} {flag : Bool}
      (inside : index < (origins steps).length) (chain : Descends (origins steps) root index deadlines)
      (family : flag = true ↔ ∃ member others, Step.cancel member ∈ steps ∧
        Descends (origins steps) root member others) :
      contexts.get? index = some ⟨flag, deadlines.min?⟩ := by
    obtain ⟨_, _, ⟨set, limit⟩, _, unique, there, cancels, deadline, _⟩ := families index inside
    obtain ⟨rfl, rfl⟩ := unique _ _ chain
    obtain rfl : set = flag := Bool.eq_iff_iff.mpr (cancels.trans family.symm)
    obtain rfl : limit = deadlines.min? := deadline
    exact there
  refine ⟨sound, contexts, ran, ?_, ?_, ?_⟩
  · exact shows (by decide) (.clone rfl background) (iff_of_true rfl cancelled)
  · exact shows (by decide) later (iff_of_true rfl cancelled)
  · exact shows (by decide) stranger (iff_of_false nofun other)

end Contexts

end ClusterRegistry
