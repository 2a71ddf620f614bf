/-!
# Values with warnings

Such a value comes with the warnings that arose on the way to it.  Warnings
are combined by concatenation, in the order of the operands; none is dropped.
-/

namespace StyleRules

/-- A remark on something that was passed over. -/
structure Warning where
  message : String
  deriving DecidableEq, Repr

/-- A value and the warnings that arose on the way to it. -/
structure WithWarnings (α : Type) where
  value : α
  warnings : List Warning
  deriving DecidableEq, Repr

namespace WithWarnings

/-- A value without warnings. -/
def ofValue (value : α) : WithWarnings α :=
  ⟨value, []⟩

instance [Inhabited α] : Inhabited (WithWarnings α) :=
  ⟨ofValue default⟩

/-- A value with one warning. -/
def ofWarning (value : α) (warning : Warning) : WithWarnings α :=
  ⟨value, [warning]⟩

/-- Changes the value. -/
def map (f : α -> β) (warned : WithWarnings α) : WithWarnings β :=
  ⟨f warned.value, warned.warnings⟩

/-- Goes on with the value; the warnings of what follows come last. -/
def bind (warned : WithWarnings α) (f : α -> WithWarnings β) : WithWarnings β :=
  let next := f warned.value
  ⟨next.value, warned.warnings ++ next.warnings⟩

/-- Combines two values; the warnings of the first come first. -/
def zipWith (first : WithWarnings α) (second : WithWarnings β) (f : α -> β -> γ) : WithWarnings γ :=
  ⟨f first.value second.value, first.warnings ++ second.warnings⟩

/-- Joins lists of values in order, and their warnings likewise. -/
def concat : List (WithWarnings (List α)) -> WithWarnings (List α)
  | [] => ofValue []
  | first :: others => first.zipWith (concat others) (· ++ ·)

@[simp]
theorem value_ofValue (value : α) :
    (ofValue value).value = value :=
  rfl

@[simp]
theorem warnings_ofValue (value : α) :
    (ofValue value).warnings = [] :=
  rfl

@[simp]
theorem value_map (f : α -> β) (warned : WithWarnings α) :
    (warned.map f).value = f warned.value :=
  rfl

@[simp]
theorem warnings_map (f : α -> β) (warned : WithWarnings α) :
    (warned.map f).warnings = warned.warnings :=
  rfl

@[simp]
theorem value_zipWith (first : WithWarnings α) (second : WithWarnings β) (f : α -> β -> γ) :
    (first.zipWith second f).value = f first.value second.value :=
  rfl

@[simp]
theorem warnings_zipWith (first : WithWarnings α) (second : WithWarnings β) (f : α -> β -> γ) :
    (first.zipWith second f).warnings = first.warnings ++ second.warnings :=
  rfl

/-- The joined values are the values in order. -/
@[simp]
theorem value_concat (results : List (WithWarnings (List α))) :
    (concat results).value = results.flatMap value := by
  induction results with
  | nil => rfl
  | cons first others inductionHypothesis => simp [concat, inductionHypothesis]

/-- The joined warnings are the warnings in order. -/
@[simp]
theorem warnings_concat (results : List (WithWarnings (List α))) :
    (concat results).warnings = results.flatMap warnings := by
  induction results with
  | nil => rfl
  | cons first others inductionHypothesis => simp [concat, inductionHypothesis]

end WithWarnings
end StyleRules
