/-
**Steps of building that are decided by what is known.**

A step of building ends with a result exactly when nothing is in its way, and that can be told from
what is known of the session.  Otherwise two elements would share a name, or a limit is not finite.

* `IsCollisionOrLimit`: such a failure;
* `Decides`: a step that ends with a result exactly under a condition;
* `Decides.bind`, `Decides.andThen`, `Decides.get_bind`: steps one after the other;
* `Decides.change`, `Decides.attempt`: the steps that change the model;
* `Throughout`: every item of a list is clear after those before it;
* `throughout_notMem_iff`: what is clear if it is new;
* `Decides.forM`: **a loop is clear when every round is after those before it**.
-/

import RamlInterfaces.Proofs.Generation.Limits
import RamlInterfaces.Proofs.Generation.Outline

namespace RamlInterfaces.Generation

open Java

variable {α β : Type}

/-- Two elements would share a name, or the limit of an integer is not finite. -/
def IsCollisionOrLimit (failure : Failure) : Prop :=
  (∃ fault, failure = .model fault ∧ fault.isCollision = true) ∨ failure = .defect .unboundedLimit

/-- A step that takes every session with the first property to a result and a session with the
second if it is clear, and that fails otherwise. -/
structure Decides (before : Session → Prop) (step : Build α) (clear : Prop)
    (after : α → Session → Prop) : Prop where
  succeeds : ∀ session, before session → clear → ∃ result final,
    step.run session = (.ok result, final) ∧ after result final
  fails : ∀ session, before session → ¬ clear → ∃ failure,
    Fails step session failure ∧ IsCollisionOrLimit failure

namespace Decides

variable {before : Session → Prop} {clear : Prop} {after : β → Session → Prop}

/-- From stronger properties to weaker ones. -/
protected theorem mono {stronger : Session → Prop} {step : Build β}
    {weaker : β → Session → Prop} (decides : Decides before step clear after)
    (implied : ∀ session, stronger session → before session)
    (implies : ∀ result session, after result session → weaker result session) :
    Decides stronger step clear weaker where
  succeeds := fun session holds free => by
    obtain ⟨result, final, ran, there⟩ := decides.succeeds session (implied session holds) free
    exact ⟨result, final, ran, implies result final there⟩
  fails := fun session holds => decides.fails session (implied session holds)

/-- From a session that is known. -/
protected theorem start {seen : Session} {step : Build β}
    (decides : Decides before step clear after)
    (holds : before seen) : Decides (fun session => session = seen) step clear after :=
  decides.mono (fun _ same => same ▸ holds) fun _ _ there => there

protected theorem congr {other : Prop} {step : Build β} (decides : Decides before step clear after)
    (same : clear ↔ other) : Decides before step other after :=
  propext same ▸ decides

/-- A step that ends with a result was clear. -/
protected theorem keep {step : Build β} (decides : Decides before step clear after) :
    Decides before step clear fun result session => clear ∧ after result session where
  succeeds := fun session holds free => by
    obtain ⟨result, final, ran, there⟩ := decides.succeeds session holds free
    exact ⟨result, final, ran, free, there⟩
  fails := decides.fails

/-- What is known of the sessions and not of one only. -/
protected theorem assuming {fact : Prop} {step : Build β}
    (decides : fact → Decides before step clear after) :
    Decides (fun session => fact ∧ before session) step clear after where
  succeeds := fun session holds => (decides holds.1).succeeds session holds.2
  fails := fun session holds => (decides holds.1).fails session holds.2

protected theorem pure {value : β} (holds : ∀ session, before session → after value session) :
    Decides before (pure value) True after where
  succeeds := fun session start _ => ⟨value, session, rfl, holds session start⟩
  fails := fun _ _ blocked => absurd trivial blocked

protected theorem throw {failure : Failure} (foreseen : IsCollisionOrLimit failure) :
    Decides before (throw failure) False after where
  succeeds := fun _ _ blocked => blocked.elim
  fails := fun _ _ _ => ⟨failure, rfl, foreseen⟩

/-- **One step after another** is clear when both are. -/
protected theorem bind {step : Build α} {next : α → Build β} {later : Prop}
    {middle : α → Session → Prop} (first : Decides before step clear middle)
    (second : ∀ value, Decides (middle value) (next value) later after) :
    Decides before (step >>= next) (clear ∧ later) after where
  succeeds := fun session start free => by
    obtain ⟨value, between, ran, holds⟩ := first.succeeds session start free.1
    obtain ⟨result, final, ranNext, there⟩ := (second value).succeeds between holds free.2
    exact ⟨result, final, run_bind_eq_ok.mpr ⟨value, between, ran, ranNext⟩, there⟩
  fails := fun session start blocked => by
    by_cases free : clear
    · obtain ⟨value, between, ran, holds⟩ := first.succeeds session start free
      have blockedNext : ¬ later := fun freeNext => blocked ⟨free, freeNext⟩
      obtain ⟨failure, failed, foreseen⟩ := (second value).fails between holds blockedNext
      exact ⟨failure, fails_bind_iff.mpr (.inr ⟨value, between, ran, failed⟩), foreseen⟩
    · obtain ⟨failure, failed, foreseen⟩ := first.fails session start free
      exact ⟨failure, fails_bind_iff.mpr (.inl failed), foreseen⟩

/-- A step after one that is always clear. -/
protected theorem andThen {step : Build α} {next : α → Build β} {middle : α → Session → Prop}
    (first : Decides before step True middle)
    (second : ∀ value, Decides (middle value) (next value) clear after) :
    Decides before (step >>= next) clear after :=
  (first.bind second).congr (iff_of_eq (true_and clear))

/-- A last step that is always clear. -/
protected theorem close {step : Build α} {next : α → Build β} {middle : α → Session → Prop}
    (first : Decides before step clear middle)
    (second : ∀ value, Decides (middle value) (next value) True after) :
    Decides before (step >>= next) clear after :=
  (first.bind second).congr (iff_of_eq (and_true clear))

/-- A step that looks at the session first. -/
protected theorem get_bind {next : Session → Build β}
    (each : ∀ seen, before seen →
      Decides (fun session => session = seen) (next seen) clear after) :
    Decides before (get >>= next) clear after where
  succeeds := fun session start free => (each session start).succeeds session rfl free
  fails := fun session start blocked => (each session start).fails session rfl blocked

protected theorem modify {update : Session → Session} {after : Unit → Session → Prop}
    (holds : ∀ session, before session → after () (update session)) :
    Decides before (modify update) True after where
  succeeds := fun session start _ => ⟨(), update session, rfl, holds session start⟩
  fails := fun _ _ blocked => absurd trivial blocked

protected theorem set {updated : Session} {after : Unit → Session → Prop}
    (holds : after () updated) : Decides before (set updated) True after where
  succeeds := fun _ _ _ => ⟨(), updated, rfl, holds⟩
  fails := fun _ _ blocked => absurd trivial blocked

/-- A change of the model. -/
protected theorem change {update : Model → Model} {after : Unit → Session → Prop}
    (holds : ∀ session, before session →
      after () { session with model := update session.model }) :
    Decides before (Build.change update) True after :=
  Decides.modify holds

/-- **A change of the model that may be refused.** -/
protected theorem attempt {step : Model → Except Fault (β × Model)}
    (settles : ∀ session, before session → Settles (step session.model) clear fun outcome =>
      after outcome.1 { session with model := outcome.2 }) :
    Decides before (Build.attempt step) clear after := by
  refine Decides.get_bind fun seen start => ?_
  have settled := settles seen start
  cases stepped : step seen.model with
  | error fault =>
    have blocked : ¬ clear := by
      intro free
      obtain ⟨_, done, _⟩ := settled.succeeds free
      cases stepped.symm.trans done
    obtain ⟨other, same, collision⟩ := settled.collides blocked
    cases stepped.symm.trans same
    refine (Decides.throw (.inl ⟨fault, rfl, collision⟩)).congr ?_
    exact (iff_false_intro blocked).symm
  | ok outcome =>
    have free : clear := by
      refine Classical.not_not.mp fun blocked => ?_
      obtain ⟨_, failed, _⟩ := settled.collides blocked
      cases stepped.symm.trans failed
    obtain ⟨other, same, holds⟩ := settled.succeeds free
    cases stepped.symm.trans same
    refine Decides.congr ?_ (iff_true_intro free).symm
    exact (Decides.set holds).andThen fun _ => Decides.pure fun _ there => there

/-- What a decided step leads to. -/
protected theorem leads {step : Build β} (decides : Decides before step clear after) :
    Leads before step after := by
  intro session result final start ran
  by_cases free : clear
  · obtain ⟨_, _, same, there⟩ := decides.succeeds session start free
    cases ran.symm.trans same
    exact there
  · obtain ⟨failure, failed, _⟩ := decides.fails session start free
    unfold Fails at failed
    rw [ran] at failed
    cases failed

/-- A step that ends with a result was clear, whatever else it leads to. -/
protected theorem leads_of_clear {step : Build β} {also : Session → Prop}
    {later : β → Session → Prop} (decides : Decides before step clear after)
    (leads : clear → Leads (fun session => before session ∧ also session) step later) :
    Leads (fun session => before session ∧ also session) step later := by
  intro session result final start ran
  obtain ⟨free, _⟩ := decides.keep.leads session result final start.1 ran
  exact leads free session result final start ran

end Decides

/-- A step is decided if it is known where it leads and when it fails. -/
theorem Leads.decides {before : Session → Prop} {clear : Prop} {after : β → Session → Prop}
    {step : Build β} (leads : Leads before step after)
    (fails : ∀ session failure, before session →
      (Fails step session failure ↔ failure = .defect .unboundedLimit ∧ ¬ clear)) :
    Decides before step clear after where
  succeeds := fun session start free => by
    cases ran : step.run session with
    | mk outcome final =>
      cases outcome with
      | error failure =>
        have failed : Fails step session failure := by
          unfold Fails
          rw [ran]
        exact absurd free ((fails session failure start).mp failed).2
      | ok result => exact ⟨result, final, rfl, leads session result final start ran⟩
  fails := fun session start blocked =>
    ⟨_, (fails session _ start).mpr ⟨rfl, blocked⟩, .inr rfl⟩

/-! ### Loops -/

/-- Every item is clear after those before it. -/
def Throughout (clear : List α → α → Prop) (before : List α) : List α → Prop
  | [] => True
  | item :: rest => clear before item ∧ Throughout clear (before ++ [item]) rest

theorem throughout_singleton_iff {clear : List α → α → Prop} {before : List α} {item : α} :
    Throughout clear before [item] ↔ clear before item :=
  iff_of_eq (and_true _)

theorem throughout_congr {clear other : List α → α → Prop} {before items : List α}
    (same : ∀ before item, clear before item ↔ other before item) :
    Throughout clear before items ↔ Throughout other before items := by
  have equal : clear = other := funext₂ fun before item => propext (same before item)
  rw [equal]

theorem throughout_cons_iff {clear : List α → α → Prop} {before rest : List α} {item : α} :
    Throughout clear before (item :: rest) ↔
      clear before item ∧ Throughout clear (before ++ [item]) rest := Iff.rfl

theorem throughout_append_iff {clear : List α → α → Prop} (before items rest : List α) :
    Throughout clear before (items ++ rest) ↔
      Throughout clear before items ∧ Throughout clear (before ++ items) rest := by
  induction items generalizing before with
  | nil =>
    rw [List.append_nil]
    exact (iff_of_eq (true_and _)).symm
  | cons item items ih =>
    have further := ih (before ++ [item])
    rw [List.append_assoc] at further
    rw [List.cons_append, throughout_cons_iff, throughout_cons_iff, further, and_assoc]
    rfl

/-- Two conditions are separate. -/
theorem throughout_and_iff {clear other : List α → α → Prop} {before items : List α} :
    Throughout (fun before item => clear before item ∧ other before item) before items ↔
      Throughout clear before items ∧ Throughout other before items := by
  induction items generalizing before with
  | nil => exact (iff_of_eq (and_self _)).symm
  | cons item rest ih =>
    rw [throughout_cons_iff, throughout_cons_iff, throughout_cons_iff, ih, and_and_and_comm]

/-- A condition that does not look back holds of every item. -/
theorem throughout_forall_iff {clear : α → Prop} {before items : List α} :
    Throughout (fun _ item => clear item) before items ↔ ∀ item ∈ items, clear item := by
  induction items generalizing before with
  | nil => exact iff_of_true trivial fun _ member => absurd member List.not_mem_nil
  | cons item rest ih =>
    rw [throughout_cons_iff, ih, List.forall_mem_cons]

/-- **Items that stand for several others** are clear when these are, one after the other. -/
theorem throughout_image_iff {clear : List β → β → Prop} {image : List α → List β}
    {chunk : List α → α → List β} (start : List β) (items : List α) (empty : image [] = [])
    (concat : ∀ before item, image (before ++ [item]) = image before ++ chunk before item) :
    Throughout (fun before item => Throughout clear (start ++ image before) (chunk before item)) []
      items ↔ Throughout clear start (image items) := by
  have further (before : List α) : Throughout clear start (image before) ∧
      Throughout (fun before item => Throughout clear (start ++ image before) (chunk before item))
        before items ↔ Throughout clear start (image (before ++ items)) := by
    induction items generalizing before with
    | nil =>
      rw [List.append_nil]
      exact iff_of_eq (and_true _)
    | cons item rest ih =>
      have split : before ++ item :: rest = before ++ [item] ++ rest := by simp
      rw [split, ← ih (before ++ [item]), concat, throughout_append_iff, throughout_cons_iff,
        and_assoc]
  have whole := further []
  rw [empty] at whole
  exact (iff_of_eq (true_and _)).symm.trans whole

/-- **What is clear if it is new is clear throughout a list without repetitions.** -/
theorem throughout_notMem_iff {view : α → β} {before items : List α}
    (distinct : (before.map view).Nodup) :
    Throughout (fun before item => view item ∉ before.map view) before items ↔
      ((before ++ items).map view).Nodup := by
  induction items generalizing before with
  | nil =>
    rw [List.append_nil]
    exact iff_of_true trivial distinct
  | cons item rest ih =>
    have split : before ++ item :: rest = before ++ [item] ++ rest := by simp
    have known : ((before ++ [item]).map view).Nodup ↔ view item ∉ before.map view :=
      nodup_map_concat_iff.trans (and_iff_right distinct)
    rw [throughout_cons_iff, split]
    constructor
    · rintro ⟨fresh, further⟩
      exact (ih (known.mpr fresh)).mp further
    · intro nodup
      have first : ((before ++ [item]).map view).Nodup := by
        rw [List.map_append] at nodup
        exact (List.nodup_append.mp nodup).1
      exact ⟨known.mp first, (ih first).mpr nodup⟩

/-- **A loop is clear when every round is after those before it.** -/
protected theorem Decides.forM {holds : List α → Session → Prop} {clear : List α → α → Prop}
    {round : α → Build Unit} (each : ∀ before item,
      Decides (holds before) (round item) (clear before item) fun _ => holds (before ++ [item]))
    (before items : List α) : Decides (holds before) (forM items round)
      (Throughout clear before items) fun _ => holds (before ++ items) := by
  induction items generalizing before with
  | nil =>
    rw [List.append_nil]
    exact Decides.pure fun _ there => there
  | cons item rest ih =>
    have further := ih (before ++ [item])
    rw [List.append_assoc] at further
    exact (each before item).bind fun _ => further

/-- A loop is a walk. -/
protected theorem Decides.loop {before : Session → Prop} {clear : Prop}
    {after : Unit → Session → Prop} {round : α → Build Unit} {items : List α}
    (decides : Decides before (forM items round) clear after) :
    Decides before (forIn items () fun item _ => do
      round item
      pure (ForInStep.yield ())) clear after := by
  rw [loop_eq_forM]
  exact decides

end RamlInterfaces.Generation
