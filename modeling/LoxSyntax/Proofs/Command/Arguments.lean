import LoxSyntax.Command.Options

/-!
# The source behind other arguments

A word behind arguments that name no source is taken as the source and changes nothing else
(`Options.ofArguments_append_word`).  So each choice of options can be had with a source and
without one.
-/

namespace LoxSyntax.Command

namespace Argument

theorem classifyOne_of_word
    {name : String} (isWord : name.toList.head? ≠ some '-') :
    classifyOne name = .ok (.word name) := by
  simp only [classifyOne]
  rw [if_pos (Or.inl isWord)]

/-- A word at the end of the arguments is classified as one. -/
theorem classify_append_word
    {arguments : List String} {classified : List Argument} {name : String}
    (accepted : classify arguments = .ok classified)
    (isWord : name.toList.head? ≠ some '-') :
    classify (arguments ++ [name]) = .ok (classified ++ [.word name]) := by
  have notSeparator : name ≠ "--" := by
    rintro rfl
    exact isWord (by decide)
  induction arguments generalizing classified with
  | nil =>
      injection accepted with isEmpty
      subst isEmpty
      rw [List.nil_append, classify, if_neg notSeparator, classifyOne_of_word isWord]
      rfl
  | cons first rest ih =>
      rw [classify] at accepted
      rw [List.cons_append, classify]
      by_cases isSeparator : first = "--"
      · rw [if_pos isSeparator] at accepted ⊢
        injection accepted with equality
        rw [← equality, List.map_append, List.cons_append]
        rfl
      · rw [if_neg isSeparator] at accepted ⊢
        cases one : classifyOne first with
        | error error =>
            rw [one] at accepted
            contradiction
        | ok argument =>
            rw [one] at accepted
            cases later : classify rest with
            | error error =>
                rw [later] at accepted
                contradiction
            | ok others =>
                rw [later] at accepted
                injection accepted with equality
                rw [ih later, ← equality]
                rfl

end Argument

namespace Options

theorem source_chooseForm
    {options chosen : Options} {value : String}
    (chooses : options.chooseForm value = .ok chosen) :
    chosen.source = options.source := by
  unfold chooseForm at chooses
  split at chooses
  · injection chooses with equality
    rw [← equality]
  · split at chooses
    · injection chooses with equality
      rw [← equality]
    · contradiction

theorem source_applyFlag
    {options applied : Options} {flag : Flag}
    (applies : options.applyFlag flag = .ok applied) :
    applied.source = options.source := by
  cases flag with
  | help | tree => cases applies
  | tokens | noTree =>
      injection applies with equality
      rw [← equality]

theorem exists_of_bind_ok
    {ε α β : Type} {first : Except ε α} {continuation : α → Except ε β} {answer : β}
    (succeeds : (first >>= continuation) = .ok answer) :
    ∃ between, first = .ok between ∧ continuation between = .ok answer := by
  cases first with
  | error error => cases succeeds
  | ok between => exact ⟨between, rfl, succeeds⟩

theorem source_takeWord
    {progress : Progress} (hasNone : progress.hasSource = false) (name : String) :
    takeWord progress name =
      { progress with
        hasSource := true
        options := { progress.options with source := some (Path.ofText name) } } := by
  rw [takeWord, hasNone]
  rfl

theorem source_isSome_takeWord
    {progress : Progress} (hasSource : progress.options.source.isSome) (name : String) :
    (takeWord progress name).options.source.isSome := by
  unfold takeWord
  split
  · exact hasSource
  · rfl

/-- A source that has been taken is kept. -/
theorem source_isSome_apply
    {progress final : Progress} {arguments : List Argument}
    (applies : apply progress arguments = .ok final)
    (hasSource : progress.options.source.isSome) :
    final.options.source.isSome := by
  fun_induction apply progress arguments with
  | case1 progress =>
      injection applies with equality
      rw [← equality]
      exact hasSource
  | case2 progress isShort value rest ih | case3 progress isShort value rest ih =>
      obtain ⟨options, chooses, applies⟩ := exists_of_bind_ok applies
      apply ih options applies
      rw [source_chooseForm chooses]
      exact hasSource
  | case4 => contradiction
  | case5 progress flag isShort value rest _ _ _ ih =>
      obtain ⟨options, changes, applies⟩ := exists_of_bind_ok applies
      apply ih options applies
      rw [source_applyFlag changes]
      exact hasSource
  | case6 progress text rest ih => exact ih applies hasSource
  | case7 progress text rest ih =>
      apply ih applies
      split
      · exact hasSource
      · exact source_isSome_takeWord hasSource text
  | case8 progress text rest _ ih => exact ih applies (source_isSome_takeWord hasSource text)
  | case9 progress rest ih =>
      apply ih applies
      split <;> exact hasSource

/-- A word behind arguments that name no source is the source. -/
theorem apply_append_word
    {progress final : Progress} {arguments : List Argument}
    (applies : apply progress arguments = .ok final)
    (noSource : final.options.source = none)
    (hasNone : progress.hasSource = false)
    (name : String) :
    final.hasSource = false ∧
      apply progress (arguments ++ [.word name]) = .ok (takeWord final name) := by
  have notNamed {named : Progress} {rest : List Argument}
      (applies : apply named rest = .ok final) (hasSource : named.options.source.isSome) :
      False := by
    have kept := source_isSome_apply applies hasSource
    rw [noSource] at kept
    contradiction
  fun_induction apply progress arguments with
  | case1 progress =>
      injection applies with equality
      subst equality
      exact ⟨hasNone, rfl⟩
  | case2 progress isShort value rest ih | case3 progress isShort value rest ih =>
      obtain ⟨options, chooses, applies⟩ := exists_of_bind_ok applies
      obtain ⟨stillNone, further⟩ := ih options applies hasNone
      refine ⟨stillNone, ?_⟩
      simp only [List.cons_append, apply, chooses]
      exact further
  | case4 => contradiction
  | case5 progress flag isShort value rest notValue notWord expected ih =>
      obtain ⟨options, changes, applies⟩ := exists_of_bind_ok applies
      obtain ⟨stillNone, further⟩ := ih options applies hasNone
      refine ⟨stillNone, ?_⟩
      cases flag with
      | help | tree => cases changes
      | tokens | noTree =>
          simp only [List.cons_append, apply, expected, changes]
          exact further
  | case6 progress text rest ih => exact ih applies hasNone
  | case7 progress text rest ih =>
      exfalso
      apply notNamed applies
      rw [hasNone, source_takeWord hasNone]
      rfl
  | case8 progress text rest _ ih =>
      exfalso
      apply notNamed applies
      rw [source_takeWord hasNone]
      rfl
  | case9 progress rest ih =>
      rw [hasNone] at applies ih
      obtain ⟨stillNone, further⟩ := ih applies hasNone
      refine ⟨stillNone, ?_⟩
      rw [List.cons_append, apply, hasNone]
      exact further

/-- The arguments with a word behind them ask for the same, with the word as the source. -/
theorem ofArguments_append_word
    {arguments : List String} {options : Options}
    (accepted : ofArguments arguments = .ok options)
    (noSource : options.source = none)
    {name : String}
    (isWord : name.toList.head? ≠ some '-') :
    ofArguments (arguments ++ [name]) =
      .ok { options with source := some (Path.ofText name) } := by
  obtain ⟨classified, classifies, applied⟩ := exists_of_bind_ok accepted
  obtain ⟨progress, applies, finishes⟩ := exists_of_bind_ok applied
  have isClassified : Argument.classify arguments = .ok classified := by
    cases outcome : Argument.classify arguments with
    | error error =>
        rw [outcome] at classifies
        contradiction
    | ok others =>
        rw [outcome] at classifies
        injection classifies with equality
        rw [equality]
  by_cases isDone : progress.refused.isEmpty
  · rw [if_pos isDone] at finishes
    injection finishes with equality
    subst equality
    obtain ⟨hasNone, further⟩ := apply_append_word applies noSource rfl name
    rw [source_takeWord hasNone] at further
    rw [ofArguments, Argument.classify_append_word isClassified isWord]
    change (apply ⟨default, false, []⟩ (classified ++ [.word name]) >>= _) = _
    rw [further]
    exact if_pos isDone
  · rw [if_neg isDone] at finishes
    contradiction

end Options

end LoxSyntax.Command
