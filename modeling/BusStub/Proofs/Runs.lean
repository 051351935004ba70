import Mathlib.Data.List.Forall2

/-! Runs that may fail: what is known about a run that succeeded, and what a failure tells about where the run
stopped. At the end, facts about lists that are related item by item or have items with keys of their own. -/

namespace BusStub

variable {α β σ ε : Type}

theorem bind_ok {first : Except ε α} {rest : α → Except ε β} {result : β} (run : first >>= rest = .ok result) :
    ∃ value, first = .ok value ∧ rest value = .ok result := by
  cases first with
  | error fault => cases run
  | ok value => exact ⟨value, rfl, run⟩

theorem ok_of_toOption {result : Except ε α} {value : α} (found : result.toOption = some value) :
    result = .ok value := by
  cases result with
  | error fault => cases found
  | ok other =>
    cases found
    rfl

/-- What holds at the start and is kept by each step, given the items before it, holds at the end. -/
theorem foldlM_ok {step : σ → α → Except ε σ} {start last : σ} {items : List α} (Done : List α → σ → Prop)
    (run : items.foldlM step start = .ok last) (initial : Done [] start)
    (kept : ∀ before item state next,
      Done before state → step state item = .ok next → Done (before ++ [item]) next) :
    Done items last := by
  -- The induction is on the items that are left; those already done stand in front of them.
  suffices ∀ rest before state,
      Done before state → rest.foldlM step state = .ok last → Done (before ++ rest) last from
    this items [] start initial run
  intro rest
  induction rest with
  | nil =>
    intro before state done finished
    cases finished
    simpa using done
  | cons item rest ih =>
    intro before state done running
    rw [List.foldlM_cons] at running
    obtain ⟨next, stepped, running⟩ := bind_ok running
    simpa using ih (before ++ [item]) next (kept before item state next done stepped) running

/-- A run can be imitated when each of its steps can. -/
theorem foldlM_imitated {step other : σ → α → Except ε σ} {start last : σ} {items : List α}
    (imitated : ∀ state item next, step state item = .ok next → other state item = .ok next)
    (run : items.foldlM step start = .ok last) : items.foldlM other start = .ok last := by
  induction items generalizing start with
  | nil => exact run
  | cons item rest ih =>
    rw [List.foldlM_cons] at run ⊢
    obtain ⟨next, stepped, run⟩ := bind_ok run
    rw [imitated start item next stepped]
    exact ih run

theorem mapM_ok {read : α → Except ε β} {items : List α} {results : List β}
    (run : items.mapM read = .ok results) : List.Forall₂ (fun item result => read item = .ok result) items results := by
  induction items generalizing results with
  | nil =>
    cases run
    exact .nil
  | cons item rest ih =>
    rw [List.mapM_cons] at run
    obtain ⟨result, first, run⟩ := bind_ok run
    obtain ⟨others, second, run⟩ := bind_ok run
    cases run
    exact .cons first (ih second)

theorem bind_error {first : Except ε α} {rest : α → Except ε β} {fault : ε} (run : first >>= rest = .error fault) :
    first = .error fault ∨ ∃ value, first = .ok value ∧ rest value = .error fault := by
  cases first with
  | error other =>
    cases run
    exact .inl rfl
  | ok value => exact .inr ⟨value, rfl, run⟩

/-- A run that fails has done the items before one, and fails at that one. -/
theorem foldlM_error {step : σ → α → Except ε σ} {start : σ} {items : List α} {fault : ε}
    (run : items.foldlM step start = .error fault) :
    ∃ before item after state, items = before ++ item :: after ∧ before.foldlM step start = .ok state ∧
      step state item = .error fault := by
  induction items generalizing start with
  | nil => cases run
  | cons item rest ih =>
    rw [List.foldlM_cons] at run
    rcases bind_error run with stopped | ⟨next, stepped, run⟩
    · exact ⟨[], item, rest, start, rfl, rfl, stopped⟩
    · obtain ⟨before, last, after, state, rfl, reached, stopped⟩ := ih run
      refine ⟨item :: before, last, after, state, rfl, ?_, stopped⟩
      rw [List.foldlM_cons, stepped]
      exact reached

theorem mapM_error {read : α → Except ε β} {items : List α} {fault : ε} (run : items.mapM read = .error fault) :
    ∃ item ∈ items, read item = .error fault := by
  induction items with
  | nil => cases run
  | cons item rest ih =>
    rw [List.mapM_cons] at run
    rcases bind_error run with first | ⟨_, -, run⟩
    · exact ⟨item, List.mem_cons_self, first⟩
    · rcases bind_error run with others | ⟨_, -, run⟩
      · obtain ⟨other, inside, failed⟩ := ih others
        exact ⟨other, List.mem_cons_of_mem _ inside, failed⟩
      · cases run

/-- Steps that change a state and may fail: a failure keeps the state that it found. -/
theorem run_bind {first : ExceptT ε (StateM σ) α} {rest : α → ExceptT ε (StateM σ) β} (state : σ) :
    (first >>= rest).run state = match first.run state with
      | (.ok value, later) => (rest value).run later
      | (.error fault, later) => (.error fault, later) := by
  change (match first.run state with | (result, later) => (ExceptT.bindCont rest result : StateM σ _) later) = _
  rcases first.run state with ⟨_ | _, later⟩ <;> rfl

theorem map_eq_of_forall₂ {γ : Type} {R : α → β → Prop} {f : α → γ} {g : β → γ} {items : List α}
    {results : List β} (related : List.Forall₂ R items results)
    (same : ∀ item result, R item result → f item = g result) :
    items.map f = results.map g := by
  rw [← List.forall₂_eq_eq_eq, List.forall₂_map_left_iff, List.forall₂_map_right_iff]
  exact related.imp same

theorem exists_of_forall₂ {R : α → β → Prop} {items : List α} {results : List β} {result : β}
    (related : List.Forall₂ R items results) (member : result ∈ results) : ∃ item ∈ items, R item result := by
  induction related with
  | nil => cases member
  | cons first rest ih =>
    rcases List.mem_cons.mp member with rfl | member
    · exact ⟨_, List.mem_cons_self .., first⟩
    · obtain ⟨item, inside, found⟩ := ih member
      exact ⟨item, List.mem_cons_of_mem _ inside, found⟩

theorem List.filter_of_nodup_map (key : α → String) {items : List α} (item : α)
    (nodup : (items.map key).Nodup) (member : item ∈ items) : items.filter (key · = key item) = [item] := by
  induction items with
  | nil => cases member
  | cons first rest ih =>
    obtain ⟨fresh, nodup⟩ := List.nodup_cons.mp nodup
    rcases List.mem_cons.mp member with rfl | member
    · have others : rest.filter (key · = key item) = [] := by
        refine List.filter_eq_nil_iff.mpr fun other inside same => fresh ?_
        exact List.mem_map.mpr ⟨other, inside, of_decide_eq_true same⟩
      rw [List.filter_cons_of_pos (by simp), others]
    · have different : key first ≠ key item := fun same => fresh (same ▸ List.mem_map_of_mem member)
      rw [List.filter_cons_of_neg (by simpa using different)]
      exact ih nodup member

theorem List.find?_of_nodup_map (key : α → String) {items : List α} (item : α)
    (nodup : (items.map key).Nodup) (member : item ∈ items) : items.find? (key · = key item) = some item := by
  rw [← List.head?_filter, filter_of_nodup_map key item nodup member]
  rfl

end BusStub
