import Mathlib.Data.List.Forall2

/-!
What a computation that may be refused has done when it was not, and what it is refused for.

A computation that makes one check after the other is refused for the first problem there is. What the
problems are is listed beside it, part by part as the computation is put together. Main statements:
`mapM_eq_ok`, `Reports.bind` and `Reports.mapM`.
-/

namespace EntityForge

variable {ε α β : Type}

theorem bind_eq_ok {action : Except ε α} {next : α → Except ε β} {result : β} :
    (action >>= next) = .ok result ↔ ∃ value, action = .ok value ∧ next value = .ok result := by
  cases action <;> simp [bind, Except.bind]

theorem pure_eq_ok {value result : α} : (pure value : Except ε α) = .ok result ↔ value = result := by
  simp [pure, Except.pure]

theorem map_eq_ok {action : Except ε α} {f : α → β} {result : β} :
    f <$> action = .ok result ↔ ∃ value, action = .ok value ∧ f value = result := by
  cases action <;> simp [Functor.map, Except.map]

theorem mapError_eq_ok {δ : Type} {action : Except ε α} {f : ε → δ} {result : α} :
    action.mapError f = .ok result ↔ action = .ok result := by
  cases action <;> simp [Except.mapError]

/-- A list is gone through without refusal exactly when every member is, and the results are those of
the members, one for one. -/
theorem mapM_eq_ok {f : α → Except ε β} {values : List α} {results : List β} :
    values.mapM f = .ok results ↔
      List.Forall₂ (fun value result => f value = .ok result) values results := by
  induction values generalizing results with
  | nil => simp [pure, Except.pure, eq_comm]
  | cons value values ih =>
    simp only [List.mapM_cons, bind_eq_ok, pure_eq_ok, ih, List.forall₂_cons_left_iff]
    constructor
    · rintro ⟨first, hfirst, rest, hrest, rfl⟩
      exact ⟨first, rest, hfirst, hrest, rfl⟩
    · rintro ⟨first, rest, hfirst, hrest, rfl⟩
      exact ⟨first, hfirst, rest, hrest, rfl⟩

theorem exists_of_forall₂_right {R : α → β → Prop} {values : List α} {results : List β}
    (h : List.Forall₂ R values results) {result : β} (hmem : result ∈ results) :
    ∃ value ∈ values, R value result := by
  induction h with
  | nil => exact absurd hmem List.not_mem_nil
  | cons hhead _ ih =>
    rcases List.mem_cons.1 hmem with rfl | hrest
    · exact ⟨_, List.mem_cons_self, hhead⟩
    · obtain ⟨value, hvalue, hR⟩ := ih hrest
      exact ⟨value, List.mem_cons_of_mem _ hvalue, hR⟩

/-- Related members that agree in something make lists that agree in it. -/
theorem map_eq_map_of_forall₂ {γ : Type} {R : α → β → Prop} {f : α → γ} {g : β → γ}
    {values : List α} {results : List β} (h : List.Forall₂ R values results)
    (hR : ∀ value result, R value result → g result = f value) : results.map g = values.map f := by
  rw [← List.forall₂_eq_eq_eq, List.forall₂_map_left_iff, List.forall₂_map_right_iff]
  exact (h.imp hR).flip

theorem forall₂_iff_of_mem {R S : α → β → Prop} {values : List α} {results : List β}
    (h : ∀ value ∈ values, ∀ result, R value result ↔ S value result) :
    List.Forall₂ R values results ↔ List.Forall₂ S values results := by
  induction values generalizing results with
  | nil => simp only [List.forall₂_nil_left_iff]
  | cons value values ih =>
    have hrest (rest : List β) : List.Forall₂ R values rest ↔ List.Forall₂ S values rest := by
      apply ih
      intro other hother
      exact h other (List.mem_cons_of_mem _ hother)
    simp only [List.forall₂_cons_left_iff, h value List.mem_cons_self, hrest]

/-- An action is refused for the first of some problems, and it is not refused if there are none. -/
def Reports (action : Except ε α) (problems : List ε) : Prop :=
  match action with
  | .ok _ => problems = []
  | .error e => problems.head? = some e

/-- What an action is refused for, if it is. -/
def refusal : Except ε α → List ε
  | .ok _ => []
  | .error e => [e]

theorem refusal_eq_nil_iff {action : Except ε α} : refusal action = [] ↔ ¬∃ e, action = .error e := by
  cases action <;> simp [refusal]

namespace Reports

variable {action : Except ε α} {problems : List ε}

theorem ok (value : α) : Reports (.ok value : Except ε α) [] := rfl

theorem error (e : ε) (more : List ε) : Reports (.error e : Except ε α) (e :: more) := rfl

theorem refusal (action : Except ε α) : Reports action (refusal action) := by
  cases action <;> rfl

theorem eq_error_iff (h : Reports action problems) {e : ε} :
    action = .error e ↔ problems.head? = some e := by
  cases action with
  | ok value =>
    obtain rfl : problems = [] := h
    simp
  | error cause =>
    have hfirst : problems.head? = some cause := h
    simp [hfirst]

theorem exists_ok_iff (h : Reports action problems) :
    (∃ value, action = .ok value) ↔ problems = [] := by
  cases action with
  | ok value =>
    obtain rfl : problems = [] := h
    simp
  | error cause =>
    have hfirst : problems.head? = some cause := h
    have hne : problems ≠ [] := by
      rintro rfl
      cases hfirst
    simp [hne]

/-- What follows an action comes to report only where the action has nothing to. -/
theorem bind (h : Reports action problems) {next : α → Except ε β} {more : List ε}
    (hnext : ∀ value, action = .ok value → Reports (next value) more) :
    Reports (action >>= next) (problems ++ more) := by
  cases action with
  | ok value =>
    obtain rfl : problems = [] := h
    exact hnext value rfl
  | error cause =>
    have hfirst : problems.head? = some cause := h
    change (problems ++ more).head? = some cause
    rw [List.head?_append, hfirst]
    rfl

theorem map (h : Reports action problems) (f : α → β) :
    Reports (action >>= fun value => pure (f value)) problems := by
  have hbind := h.bind fun value _ => Reports.ok (ε := ε) (f value)
  rwa [List.append_nil] at hbind

/-- A list that is gone through reports the problems of its members in their order. -/
theorem mapM {f : α → Except ε β} {values : List α} {problemsOf : α → List ε}
    (h : ∀ value ∈ values, Reports (f value) (problemsOf value)) :
    Reports (values.mapM f) (values.flatMap problemsOf) := by
  induction values with
  | nil => exact ok []
  | cons value values ih =>
    have hfirst := h value List.mem_cons_self
    have hrest := ih fun other hother => h other (List.mem_cons_of_mem _ hother)
    rw [List.mapM_cons, List.flatMap_cons]
    exact hfirst.bind fun result _ => hrest.map _

end Reports

/-- The first problem of a list is that of its first member to have any. -/
theorem head?_problems_eq_some_iff {values : List α} {problemsOf : α → List ε} {e : ε} :
    (values.flatMap problemsOf).head? = some e ↔
      ∃ before value after, values = before ++ value :: after ∧
        (problemsOf value).head? = some e ∧ ∀ earlier ∈ before, problemsOf earlier = [] := by
  rw [List.head?_flatMap, List.findSome?_eq_some_iff]
  simp only [List.head?_eq_none_iff]

end EntityForge
