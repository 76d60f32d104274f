import Mathlib.Control.Monad.Basic
import Mathlib.Data.List.Forall2

/-!
Computations that may fail, taken apart: a sequence succeeds exactly where each of its steps does,
and what its errors are turned into is what those of its steps are turned into.
-/
namespace ClusterRegistry.Outcome

variable {ε α β : Type}

theorem bind_eq_ok {first : Except ε α} {next : α → Except ε β} {result : β} :
    (first >>= next) = .ok result ↔ ∃ value, first = .ok value ∧ next value = .ok result := by
  cases first with
  | error error => simp [bind, Except.bind]
  | ok value => simp [bind, Except.bind]

theorem toOption_map_eq_some {f : α → β} {outcome : Except ε α} {result : β} :
    outcome.toOption.map f = some result ↔ ∃ value, outcome = .ok value ∧ f value = result := by
  cases outcome <;> simp [Except.toOption]

theorem forM_eq_ok {step : α → Except ε Unit} {items : List α} :
    forM items step = .ok () ↔ ∀ item ∈ items, step item = .ok () := by
  induction items with
  | nil => simp [pure, Except.pure]
  | cons item rest ih =>
    rw [List.forM_cons, bind_eq_ok, List.forall_mem_cons, ih]
    constructor
    · intro given
      obtain ⟨⟨⟩, first, others⟩ := given
      exact ⟨first, others⟩
    · intro given
      obtain ⟨first, others⟩ := given
      exact ⟨(), first, others⟩

theorem mapM_cons_eq_ok {step : α → Except ε β} {item : α} {rest : List α} {results : List β} :
    (item :: rest).mapM step = .ok results ↔
      ∃ first others, step item = .ok first ∧ rest.mapM step = .ok others ∧
        results = first :: others := by
  rw [List.mapM_cons, bind_eq_ok]
  constructor
  · intro given
    obtain ⟨first, one, h⟩ := given
    obtain ⟨others, all, h⟩ := bind_eq_ok.mp h
    exact ⟨first, others, one, all, (Except.ok.inj h).symm⟩
  · intro given
    obtain ⟨first, others, one, all, same⟩ := given
    exact ⟨first, one, bind_eq_ok.mpr ⟨others, all, by rw [same]; rfl⟩⟩

/-- Where a total function says what each step gives, a whole list succeeds exactly where every
member does. -/
theorem mapM_eq_ok {step : α → Except ε β} {fits : α → Prop} {result : α → β}
    (each : ∀ item value, step item = .ok value ↔ fits item ∧ value = result item)
    {items : List α} {results : List β} :
    items.mapM step = .ok results ↔ (∀ item ∈ items, fits item) ∧ results = items.map result := by
  induction items generalizing results with
  | nil => simp [pure, Except.pure, eq_comm]
  | cons item rest ih =>
    rw [mapM_cons_eq_ok]
    constructor
    · intro given
      obtain ⟨first, others, one, all, rfl⟩ := given
      obtain ⟨fit, rfl⟩ := (each _ _).mp one
      obtain ⟨fits, rfl⟩ := ih.mp all
      exact ⟨List.forall_mem_cons.mpr ⟨fit, fits⟩, rfl⟩
    · intro given
      obtain ⟨fits, rfl⟩ := given
      obtain ⟨fit, fits⟩ := List.forall_mem_cons.mp fits
      exact ⟨_, _, (each _ _).mpr ⟨fit, rfl⟩, ih.mpr ⟨fits, rfl⟩, rfl⟩

theorem mapM_congr {step other : α → Except ε β} {items : List α}
    (same : ∀ item ∈ items, step item = other item) : items.mapM step = items.mapM other := by
  induction items with
  | nil => rfl
  | cons item rest ih =>
    obtain ⟨first, same⟩ := List.forall_mem_cons.mp same
    rw [List.mapM_cons, List.mapM_cons, first, ih same]

theorem mapM_eq_ok_map {step : α → Except ε β} {items : List α} {results : List β} :
    items.mapM step = .ok results ↔ items.map step = results.map .ok := by
  induction items generalizing results with
  | nil => cases results <;> simp [pure, Except.pure]
  | cons item rest ih =>
    rw [mapM_cons_eq_ok]
    cases results <;> simp [ih]

theorem mapM_eq_ok_forall₂ {step : α → Except ε β} {items : List α} {results : List β} :
    items.mapM step = .ok results ↔
      List.Forall₂ (fun item result => step item = .ok result) items results := by
  rw [mapM_eq_ok_map, ← List.forall₂_eq_eq_eq, List.forall₂_map_left_iff,
    List.forall₂_map_right_iff]

theorem exists_mapM_eq_ok {step : α → Except ε β} {items : List α} :
    (∃ results, items.mapM step = .ok results) ↔
      ∀ item ∈ items, ∃ result, step item = .ok result := by
  induction items with
  | nil => simp [pure, Except.pure]
  | cons item rest ih =>
    rw [List.forall_mem_cons, ← ih]
    constructor
    · intro given
      obtain ⟨_, whole⟩ := given
      obtain ⟨first, others, one, all, _⟩ := mapM_cons_eq_ok.mp whole
      exact ⟨⟨first, one⟩, others, all⟩
    · intro given
      obtain ⟨⟨first, one⟩, others, all⟩ := given
      exact ⟨_, mapM_cons_eq_ok.mpr ⟨first, others, one, all, rfl⟩⟩

private theorem mapM_cons_eq_error {step : α → Except ε β} {item : α} {rest : List α} {error : ε} :
    (item :: rest).mapM step = .error error ↔
      step item = .error error ∨ ∃ first, step item = .ok first ∧ rest.mapM step = .error error := by
  rw [List.mapM_cons]
  cases step item with
  | error cause => simp [bind, Except.bind]
  | ok first => cases rest.mapM step <;> simp [bind, Except.bind, pure, Except.pure]

/-- A list fails as its first member does that fails. -/
theorem mapM_eq_error {step : α → Except ε β} {items : List α} {error : ε} :
    items.mapM step = .error error ↔ ∃ front item back, items = front ++ item :: back ∧
      (∀ earlier ∈ front, ∃ result, step earlier = .ok result) ∧ step item = .error error := by
  induction items with
  | nil => simp [pure, Except.pure]
  | cons item rest ih =>
    rw [mapM_cons_eq_error, ih]
    constructor
    · intro given
      rcases given with failed | ⟨first, one, front, other, back, rfl, passed, failed⟩
      · exact ⟨[], item, rest, rfl, nofun, failed⟩
      · exact ⟨item :: front, other, back, rfl, List.forall_mem_cons.mpr ⟨⟨first, one⟩, passed⟩,
          failed⟩
    · intro given
      obtain ⟨front, other, back, parts, passed, failed⟩ := given
      cases front with
      | nil =>
        cases parts
        exact .inl failed
      | cons earlier front =>
        cases parts
        obtain ⟨⟨first, one⟩, passed⟩ := List.forall_mem_cons.mp passed
        exact .inr ⟨first, one, front, other, back, rfl, passed, failed⟩

theorem mapM_range_eq_ok {step : Nat → Except ε α} {length : Nat} {results : List α} :
    (List.range length).mapM step = .ok results ↔ results.length = length ∧
      ∀ index result, results[index]? = some result → step index = .ok result := by
  rw [mapM_eq_ok_map]
  constructor
  · intro same
    have size : results.length = length := by simpa using (congrArg List.length same).symm
    refine ⟨size, fun index result found => ?_⟩
    obtain ⟨inside, _⟩ := List.getElem?_eq_some_iff.mp found
    have here := congrArg (·[index]?) same
    simpa [List.getElem?_range (size ▸ inside), found] using here
  · intro given
    obtain ⟨rfl, each⟩ := given
    refine List.ext_getElem (by simp) fun index inside _ => ?_
    rw [List.length_map, List.length_range] at inside
    simpa using each index results[index] (List.getElem?_eq_getElem inside)

theorem mapError_eq_ok {ε' : Type} {f : ε → ε'} {outcome : Except ε α} {value : α} :
    outcome.mapError f = .ok value ↔ outcome = .ok value := by
  cases outcome <;> simp [Except.mapError]

private theorem mapError_bind {ε' : Type} (f : ε → ε') (first second : Except ε Unit) :
    (first >>= fun _ => second).mapError f =
      first.mapError f >>= fun _ => second.mapError f := by
  cases first <;> rfl

theorem mapError_forM {ε' : Type} (f : ε → ε') (step : α → Except ε Unit)
    (items : List α) :
    (items.forM step).mapError f = items.forM fun item => (step item).mapError f := by
  induction items with
  | nil => rfl
  | cons item items ih =>
    change ((step item) >>= fun _ => items.forM step).mapError f = _
    rw [mapError_bind, ih]
    rfl

theorem forM_mapIdx {step : β → Except ε Unit} {other : α → Except ε Unit}
    (f : Nat → α → β) (items : List α)
    (same : ∀ index item, index < items.length → step (f index item) = other item) :
    (items.mapIdx f).forM step = items.forM other := by
  induction items generalizing f with
  | nil => rfl
  | cons item items ih =>
    have rest := ih (fun index => f (index + 1)) fun index other inside =>
      same (index + 1) other (Nat.succ_lt_succ inside)
    rw [List.mapIdx_cons]
    change (step (f 0 item) >>= fun _ => _) = (_ >>= fun _ => _)
    rw [same 0 item (Nat.succ_pos _)]
    exact congrArg _ (funext fun _ => rest)

end ClusterRegistry.Outcome
