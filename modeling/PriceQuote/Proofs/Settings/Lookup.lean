import PriceQuote.Proofs.Settings.File

/-!
# Settings are looked up as they are loaded

Where settings come from is told on ways other than those on which they are loaded. Both lead to the
same place:

* `find?_nonBlank`: the variable that is told is the one that counts;
* `Key.IsIn`, `containsPath_iff`: what is looked for in a document is a setting under its name in its
  section;
* `writtenDocument?_eq_some_iff`: the document is that of the chosen file.
-/

namespace PriceQuote.Settings

variable {host : Host} {path : Option String} {key : Key}

/-! ## Variables -/

theorem find?_isSome {α β : Type} (f : α → Option β) (xs : List α) :
    xs.find? (fun x => (f x).isSome) = (xs.findSome? fun x => (f x).map (x, ·)).map (·.1) := by
  induction xs with
  | nil => rfl
  | cons x xs ih => cases hx : f x <;> simp [hx, ih]

/-- The names that are looked up are those of the variables for the setting. For most settings the
second name is the first over again. -/
theorem find?_variableName (p : String → Bool) (key : Key) :
    [key.variableName, Text.replace key.variableName "_LOGGING_" "_LOG_"].find? p =
      key.variableNames.find? p := by
  have hnames : Text.replace key.variableName "_LOGGING_" "_LOG_" = key.variableName ∧
      key.variableNames = [key.variableName] ∨
      key.variableNames =
        [key.variableName, Text.replace key.variableName "_LOGGING_" "_LOG_"] := by
    cases key <;> decide +kernel
  obtain ⟨hreplace, hnames⟩ | hnames := hnames
  · rw [hreplace, hnames, List.find?_cons, List.find?_singleton]
    cases p key.variableName <;> rfl
  · rw [hnames]

/-- The variable that is told is the one that counts. -/
theorem find?_nonBlank (host : Host) (key : Key) :
    [key.variableName, Text.replace key.variableName "_LOGGING_" "_LOG_"].find?
      (fun name => (nonBlank? host name).isSome) = (key.given? host).map (·.1) := by
  rw [find?_variableName, find?_isSome, Key.given?]

/-! ## The file -/

/-- What is under the name of a setting in its section. -/
def Key.IsIn (key : Key) (document : Document) : Prop :=
  ∃ inner entry, child? key.table document = some inner ∧ child? key.name inner = some entry

/-- What is looked for in a document is the setting under its name in its section. -/
theorem containsPath_iff {document : Document} :
    containsPath document key.path = true ↔ key.IsIn document := by
  have hkeys : (key.path.toList.splitOn '.').map String.ofList = [key.table, key.name] := by
    cases key <;> decide +kernel
  rw [containsPath, hkeys, Option.isSome_iff_exists]
  simp only [List.foldlM_cons, List.foldlM_nil, Option.bind_eq_bind, Option.bind_eq_some_iff,
    Option.pure_def, Option.some.injEq, exists_eq_right, Key.IsIn]
  exact exists_comm

/-- The document that is looked into is that of the chosen file before any variable is put in. -/
theorem writtenDocument?_eq_some_iff {free : Document} :
    writtenDocument? host (detectFile? host path) = some free ↔ ∃ file text document,
      IsChosen host path file ∧ host.readText file = .ok text ∧
        Toml.document? text = some document ∧ Toml.freeForm? document = some free := by
  simp only [detectFile?_eq, ← file?_eq_some_iff, writtenDocument?, Option.bind_eq_bind,
    Option.bind_eq_some_iff]
  refine exists_congr fun file => ?_
  cases host.readText file <;> simp [Option.bind_eq_some_iff]

end PriceQuote.Settings
