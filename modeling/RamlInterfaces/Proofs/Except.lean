/-
**Walks that may fail.**

Two walks end alike when both give results, which are related in a given way, or when both fail in
the same way.

* `bind_eq_ok_iff`, `bind_eq_error_iff`: one result after another;
* `mapM_eq_ok_iff`: a walk gives results where each step gives one;
* `ComesTo`, `mapM_eq_error_iff`: **a walk fails as the first step that fails does**;
* `mapM_congr_of_ne`: two walks agree where the steps do, unless the first ends with a certain
  failure;
* `failure?`: the failure of a result alone, where no later step depends on an earlier result;
* `EndAlike`: the relation between the results of two walks;
* `EndAlike.bind`, `EndAlike.mapM`, `EndAlike.foldlM`: **walks whose steps end alike do so
  themselves**.
-/

import Mathlib.Data.List.Forall2

namespace RamlInterfaces

variable {ε α β : Type}

theorem bind_eq_ok_iff {first : Except ε α} {next : α → Except ε β} {result : β} :
    first >>= next = .ok result ↔ ∃ value, first = .ok value ∧ next value = .ok result := by
  cases first with
  | error failure =>
    constructor
    · intro same
      cases same
    · rintro ⟨_, same, _⟩
      cases same
  | ok value =>
    constructor
    · exact fun same => ⟨value, rfl, same⟩
    · rintro ⟨_, same, done⟩
      cases same
      exact done

theorem bind_eq_error_iff {first : Except ε α} {next : α → Except ε β} {failure : ε} :
    first >>= next = .error failure ↔
      first = .error failure ∨ ∃ value, first = .ok value ∧ next value = .error failure := by
  cases first with
  | error other =>
    constructor
    · intro same
      cases same
      exact .inl rfl
    · rintro (same | ⟨_, same, _⟩)
      · cases same
        rfl
      · cases same
  | ok value =>
    constructor
    · exact fun same => .inr ⟨value, rfl, same⟩
    · rintro (same | ⟨_, same, done⟩)
      · cases same
      · cases same
        exact done

theorem toOption_eq_some_iff {result : Except ε α} {value : α} :
    result.toOption = some value ↔ result = .ok value := by
  cases result with
  | error failure => exact iff_of_false (fun same => by cases same) fun same => by cases same
  | ok other => exact Option.some_inj.trans (Except.ok.injEq other value).symm.to_iff

theorem mapError_eq_ok_iff {δ : Type} {result : Except ε α} {change : ε → δ} {value : α} :
    result.mapError change = .ok value ↔ result = .ok value := by
  cases result with
  | error failure => exact iff_of_false (fun same => by cases same) fun same => by cases same
  | ok other => rw [Except.mapError, Except.ok.injEq, Except.ok.injEq]

theorem map_eq_ok_iff {result : Except ε α} {change : α → β} {value : β} :
    result.map change = .ok value ↔ ∃ inner, result = .ok inner ∧ change inner = value := by
  cases result with
  | error failure =>
    refine iff_of_false (fun same => by cases same) ?_
    rintro ⟨_, same, _⟩
    cases same
  | ok other =>
    constructor
    · intro same
      exact ⟨other, rfl, Except.ok.inj same⟩
    · rintro ⟨_, same, rfl⟩
      cases same
      rfl

/-- What is refused on a condition gives a result only where that does not hold. -/
theorem guarded_eq_ok_iff {refused : Prop} [Decidable refused] {failure : ε}
    {rest : Except ε α} {value : α} :
    (if refused then .error failure else rest) = .ok value ↔ ¬ refused ∧ rest = .ok value := by
  by_cases isRefused : refused
  · rw [if_pos isRefused]
    exact iff_of_false (fun same => by cases same) fun passed => passed.1 isRefused
  · rw [if_neg isRefused]
    exact (and_iff_right isRefused).symm

theorem guarded_eq_error_iff {refused : Prop} [Decidable refused] {failure other : ε}
    {rest : Except ε α} : (if refused then .error failure else rest) = .error other ↔
      refused ∧ other = failure ∨ ¬ refused ∧ rest = .error other := by
  by_cases isRefused : refused
  · rw [if_pos isRefused, Except.error.injEq]
    simp only [isRefused, true_and, not_true, false_and, or_false, eq_comm]
  · rw [if_neg isRefused]
    simp only [isRefused, false_and, not_false_eq_true, true_and, false_or]

variable {step : α → Except ε β}

/-- A walk gives the results of its steps, if each gives one. -/
theorem mapM_eq_ok_iff {items : List α} {results : List β} :
    items.mapM step = .ok results ↔ items.map step = results.map .ok := by
  induction items generalizing results with
  | nil =>
    cases results with
    | nil => exact iff_of_true rfl rfl
    | cons result rest =>
      refine iff_of_false (fun same => ?_) (fun same => ?_) <;> cases same
  | cons item rest ih =>
    rw [List.mapM_cons, bind_eq_ok_iff]
    constructor
    · rintro ⟨result, first, done⟩
      obtain ⟨others, later, same⟩ := bind_eq_ok_iff.mp done
      cases same
      rw [List.map_cons, List.map_cons, first, ih.mp later]
    · intro same
      cases results with
      | nil => cases same
      | cons result others =>
        obtain ⟨first, later⟩ := List.cons.inj same
        exact ⟨result, first, bind_eq_ok_iff.mpr ⟨others, ih.mpr later, rfl⟩⟩

/-- A walk comes to an item: every step before it gives a result. -/
def ComesTo (step : α → Except ε β) (items : List α) (item : α) : Prop :=
  ∃ before after, items = before ++ item :: after ∧
    ∀ earlier ∈ before, ∃ result, step earlier = .ok result

theorem ComesTo.mem {items : List α} {item : α} (comes : ComesTo step items item) :
    item ∈ items := by
  obtain ⟨before, after, rfl, -⟩ := comes
  exact List.mem_append_right _ List.mem_cons_self

/-- **A walk fails as the first step that fails does.** -/
theorem mapM_eq_error_iff {items : List α} {failure : ε} : items.mapM step = .error failure ↔
    ∃ item, ComesTo step items item ∧ step item = .error failure := by
  induction items with
  | nil =>
    refine iff_of_false (fun same => ?_) ?_
    · cases same
    · rintro ⟨_, ⟨before, after, same, _⟩, _⟩
      cases before <;> cases same
  | cons item rest ih =>
    rw [List.mapM_cons, bind_eq_error_iff]
    constructor
    · rintro (first | ⟨result, first, done⟩)
      · exact ⟨item, ⟨[], rest, rfl, fun _ member => absurd member List.not_mem_nil⟩, first⟩
      · rcases bind_eq_error_iff.mp done with later | ⟨_, _, same⟩
        · obtain ⟨other, ⟨before, after, rfl, earlier⟩, failed⟩ := ih.mp later
          refine ⟨other, ⟨item :: before, after, rfl, fun each member => ?_⟩, failed⟩
          rcases List.mem_cons.mp member with rfl | there
          · exact ⟨result, first⟩
          · exact earlier each there
        · cases same
    · rintro ⟨other, ⟨before, after, same, earlier⟩, failed⟩
      cases before with
      | nil =>
        cases same
        exact .inl failed
      | cons first before =>
        cases same
        obtain ⟨result, done⟩ := earlier item List.mem_cons_self
        refine .inr ⟨result, done, bind_eq_error_iff.mpr (.inl (ih.mpr ⟨other, ?_, failed⟩))⟩
        exact ⟨before, after, rfl, fun each member => earlier each (List.mem_cons_of_mem _ member)⟩

/-! ### Walks that do not end with a certain failure -/

theorem bind_congr_of_ne {first : Except ε α} {next other : α → Except ε β} {bad : ε}
    (each : ∀ value, next value ≠ .error bad → other value = next value)
    (ends : first >>= next ≠ .error bad) : first >>= other = first >>= next := by
  cases first with
  | error failure => rfl
  | ok value => exact each value ends

theorem mapM_congr_of_ne {other : α → Except ε β} {bad : ε} {items : List α}
    (each : ∀ item, step item ≠ .error bad → other item = step item)
    (ends : items.mapM step ≠ .error bad) : items.mapM other = items.mapM step := by
  induction items with
  | nil => rfl
  | cons item rest ih =>
    rw [List.mapM_cons] at ends
    rw [List.mapM_cons, List.mapM_cons]
    have first : other item = step item := by
      refine each item fun failed => ends ?_
      rw [failed]
      rfl
    rw [first]
    refine bind_congr_of_ne (fun result further => ?_) ends
    have later : rest.mapM other = rest.mapM step := by
      refine ih fun failed => further ?_
      rw [failed]
      rfl
    rw [later]

/-- What every round of a loop keeps holds of its result. -/
theorem foldlM_keeps {σ : Type} {round : σ → α → Except ε σ} {keeps : σ → Prop}
    (each : ∀ state item next, keeps state → round state item = .ok next → keeps next)
    {items : List α} {start final : σ} (holds : keeps start)
    (done : items.foldlM round start = .ok final) : keeps final := by
  induction items generalizing start with
  | nil =>
    cases done
    exact holds
  | cons item rest ih =>
    rw [List.foldlM_cons, bind_eq_ok_iff] at done
    obtain ⟨state, first, later⟩ := done
    exact ih (each start item state holds first) later

/-- Every result of a walk is that of a step. -/
theorem exists_of_mem_mapM {items : List α} {results : List β} {result : β}
    (done : items.mapM step = .ok results) (member : result ∈ results) :
    ∃ item ∈ items, step item = .ok result := by
  have there : .ok result ∈ results.map (Except.ok (ε := ε)) := List.mem_map_of_mem member
  rw [← mapM_eq_ok_iff.mp done] at there
  exact List.mem_map.mp there

/-- Every step of a walk has its result. -/
theorem exists_result_of_mem {items : List α} {results : List β} {item : α}
    (done : items.mapM step = .ok results) (member : item ∈ items) :
    ∃ result ∈ results, step item = .ok result := by
  have there : step item ∈ results.map Except.ok :=
    mapM_eq_ok_iff.mp done ▸ List.mem_map_of_mem member
  obtain ⟨result, isResult, same⟩ := List.mem_map.mp there
  exact ⟨result, isResult, same.symm⟩

/-- **A walk through fewer items gives fewer results.** -/
theorem exists_mapM_of_subset {items fewer : List α} {results : List β} (subset : fewer ⊆ items)
    (done : items.mapM step = .ok results) :
    ∃ kept, fewer.mapM step = .ok kept ∧ kept ⊆ results := by
  simp only [mapM_eq_ok_iff]
  induction fewer with
  | nil => exact ⟨[], rfl, List.nil_subset _⟩
  | cons item rest ih =>
    obtain ⟨isItem, others⟩ := List.cons_subset.mp subset
    obtain ⟨kept, isKept, within⟩ := ih others
    obtain ⟨result, isResult, same⟩ := exists_result_of_mem done isItem
    refine ⟨result :: kept, ?_, List.cons_subset.mpr ⟨isResult, within⟩⟩
    rw [List.map_cons, List.map_cons, isKept, same]

/-! ### Failures alone -/

/-- The failure of a result that is one. -/
@[simp] def failure? : Except ε α → Option ε
  | .ok _ => none
  | .error failure => some failure

theorem failure?_eq_some {result : Except ε α} {failure : ε} :
    failure? result = some failure ↔ result = .error failure := by
  cases result <;> simp

/-- A failure that does not depend on the results before it. -/
theorem failure?_bind {first : Except ε α} {next : α → Except ε β} (later : Option ε)
    (same : ∀ value, first = .ok value → failure? (next value) = later) :
    failure? (first >>= next) = (failure? first).or later := by
  cases first with
  | error failure => rfl
  | ok value => exact same value rfl

@[simp] theorem failure?_bind_pure (first : Except ε α) (change : α → β) :
    failure? (first >>= fun value => pure (change value)) = failure? first := by
  cases first <;> rfl

@[simp] theorem failure?_mapError {δ : Type} (result : Except ε α) (change : ε → δ) :
    failure? (result.mapError change) = (failure? result).map change := by
  cases result <;> rfl

theorem failure?_mapM (items : List α) :
    failure? (items.mapM step) = items.findSome? fun item => failure? (step item) := by
  induction items with
  | nil => rfl
  | cons item rest ih =>
    have later (result : β) : failure? (rest.mapM step >>= fun others => pure (result :: others)) =
        rest.findSome? fun item => failure? (step item) := by
      rw [failure?_bind_pure, ih]
    rw [List.mapM_cons, List.findSome?_cons]
    refine (failure?_bind _ fun result _ => later result).trans ?_
    cases failure? (step item) <;> rfl

/-- The failure of a loop whose rounds fail whatever came before them. -/
theorem failure?_foldlM {σ : Type} {round : σ → α → Except ε σ} {fault : α → Option ε}
    (same : ∀ state item, failure? (round state item) = fault item) (items : List α) (start : σ) :
    failure? (items.foldlM round start) = items.findSome? fault := by
  induction items generalizing start with
  | nil => rfl
  | cons item rest ih =>
    rw [List.foldlM_cons, List.findSome?_cons]
    refine (failure?_bind _ fun state _ => ih state).trans ?_
    rw [same]
    cases fault item <;> rfl

/-! ### Two walks -/

variable {γ δ : Type}

/-- Both results are values, related as given, or both are the same failure. -/
inductive EndAlike (rel : α → β → Prop) : Except ε α → Except ε β → Prop where
  | ok {value : α} {other : β} (related : rel value other) : EndAlike rel (.ok value) (.ok other)
  | error (failure : ε) : EndAlike rel (.error failure) (.error failure)

namespace EndAlike

variable {rel : α → β → Prop} {further : γ → δ → Prop}

theorem refl {same : α → α → Prop} (each : ∀ value, same value value) (result : Except ε α) :
    EndAlike same result result := by
  cases result with
  | ok value => exact .ok (each value)
  | error failure => exact .error failure

/-- A result is like itself, and gives the value that it gives. -/
theorem self (result : Except ε α) :
    EndAlike (fun value other => value = other ∧ result = .ok value) result result := by
  cases result with
  | ok value => exact .ok ⟨rfl, rfl⟩
  | error failure => exact .error failure

theorem eq {first second : Except ε α} (alike : EndAlike Eq first second) : first = second := by
  cases alike with
  | ok same => rw [same]
  | error => rfl

theorem mono {weaker : α → β → Prop} {first : Except ε α} {second : Except ε β}
    (alike : EndAlike rel first second) (implied : ∀ value other, rel value other →
      weaker value other) : EndAlike weaker first second := by
  cases alike with
  | ok related => exact .ok (implied _ _ related)
  | error failure => exact .error failure

/-- **One step after another.** -/
theorem bind {first : Except ε α} {second : Except ε β} {next : α → Except ε γ}
    {last : β → Except ε δ} (alike : EndAlike rel first second)
    (each : ∀ value other, rel value other → EndAlike further (next value) (last other)) :
    EndAlike further (first >>= next) (second >>= last) := by
  cases alike with
  | ok related => exact each _ _ related
  | error failure => exact .error failure

/-- **A step for each item.** -/
theorem mapM {items : List α} {others : List β} {step : α → Except ε γ} {last : β → Except ε δ}
    (related : List.Forall₂ rel items others)
    (each : ∀ item ∈ items, ∀ other, rel item other → EndAlike further (step item) (last other)) :
    EndAlike (List.Forall₂ further) (items.mapM step) (others.mapM last) := by
  induction related with
  | nil => exact .ok .nil
  | cons here _ ih =>
    obtain ⟨first, later⟩ := List.forall_mem_cons.mp each
    rw [List.mapM_cons, List.mapM_cons]
    refine (first _ here).bind fun result another isResult => ?_
    exact (ih later).bind fun results more areResults => .ok (.cons isResult areResults)

/-- **A round for each item.** -/
theorem foldlM {items : List γ} {others : List δ} {round : α → γ → Except ε α}
    {last : β → δ → Except ε β} {start : α} {begin : β}
    (related : List.Forall₂ further items others) (starts : rel start begin)
    (each : ∀ item ∈ items, ∀ other, further item other → ∀ state another, rel state another →
      EndAlike rel (round state item) (last another other)) :
    EndAlike rel (items.foldlM round start) (others.foldlM last begin) := by
  induction related generalizing start begin with
  | nil => exact .ok starts
  | cons here _ ih =>
    obtain ⟨first, later⟩ := List.forall_mem_cons.mp each
    rw [List.foldlM_cons, List.foldlM_cons]
    exact (first _ here _ _ starts).bind fun state another isState => ih isState later

end EndAlike

end RamlInterfaces
