import Mathlib.Tactic.Common
import PriceQuote.Proofs.Document.Leaves
import PriceQuote.Toml.Text

/-!
# TOML has no word for nothing

Whatever stands under a key of a TOML text is something: `null` is nowhere in its document.

* `Document.IsPresent`: nothing in a document is `null`;
* `Toml.ArePresent`, `arePresent_insert?`, `arePresent_section?`: so it is of the tables that a text
  builds up, whatever is put into them;
* `isPresent_value?`, `isPresent_document?`: and of all that is read.
-/

namespace PriceQuote

/-- Nothing in a document is `null`. -/
def Document.IsPresent (document : Document) : Prop :=
  document.AllLeaves (· ≠ .null)

namespace Toml

open Document (IsPresent)

/-! ## Tables -/

/-- Nothing in the entries of a table is `null`. -/
def ArePresent (entries : Entries) : Prop :=
  ∀ entry ∈ entries, entry.2.document.IsPresent

theorem entriesOf_eq_map (entries : Entries) :
    entriesOf entries = entries.map fun entry => (some entry.1, entry.2.document) := by
  induction entries with
  | nil => rfl
  | cons entry entries ih => rw [entriesOf, ih, List.map_cons]

theorem rowsOf_eq_map (rows : List Entries) :
    rowsOf rows = rows.map fun row => .table (entriesOf row) true := by
  induction rows with
  | nil => rfl
  | cons row rows ih => rw [rowsOf, ih, List.map_cons]

theorem isPresent_table_iff {entries : Entries} {closed : Bool} :
    IsPresent (.table (entriesOf entries) closed) ↔ ArePresent entries := by
  rw [IsPresent, Document.AllLeaves, Document.allEntries_iff, entriesOf_eq_map,
    List.forall_mem_map]
  rfl

theorem isPresent_rows_iff {rows : List Entries} :
    (Node.rows rows).document.IsPresent ↔ ∀ row ∈ rows, ArePresent row := by
  rw [Node.document, IsPresent, Document.AllLeaves, Document.allItems_iff, rowsOf_eq_map,
    List.forall_mem_map]
  exact forall₂_congr fun _ _ => isPresent_table_iff

variable {entries entries' : Entries} {key name : String} {node : Node}

theorem arePresent_nil : ArePresent [] := fun _ h => nomatch h

theorem isPresent_of_find? (hentries : ArePresent entries) (h : find? name entries = some node) :
    node.document.IsPresent := by
  obtain ⟨front, back, rfl, -⟩ := List.lookup_eq_some_iff.mp h
  exact hentries (name, node) (List.mem_append_right _ List.mem_cons_self)

/-- What is put in place of something is in the table, and nothing else that was not. -/
theorem arePresent_put (hentries : ArePresent entries) (hnode : node.document.IsPresent) :
    ArePresent (put key node entries) := by
  induction entries with
  | nil => exact List.forall_mem_singleton.mpr hnode
  | cons entry entries ih =>
    obtain ⟨hentry, hentries⟩ := List.forall_mem_cons.mp hentries
    rw [put]
    split
    · exact List.forall_mem_cons.mpr ⟨hnode, hentries⟩
    · exact List.forall_mem_cons.mpr ⟨hentry, ih hentries⟩

theorem arePresent_putLast (hentries : ArePresent entries) (hnode : node.document.IsPresent) :
    ArePresent (putLast key node entries) := by
  refine List.forall_mem_append.mpr ⟨fun entry hentry => ?_, List.forall_mem_singleton.mpr hnode⟩
  exact hentries entry (List.mem_filter.mp hentry).1

theorem arePresent_changeLast? {change : Entries → Option Entries}
    (hchange : ∀ row row', ArePresent row → change row = some row' → ArePresent row')
    {rows rows' : List Entries} (hrows : ∀ row ∈ rows, ArePresent row)
    (h : changeLast? change rows = some rows') : ∀ row ∈ rows', ArePresent row := by
  induction rows generalizing rows' with
  | nil => cases h
  | cons row rows ih =>
    obtain ⟨hrow, hrows⟩ := List.forall_mem_cons.mp hrows
    cases rows with
    | nil =>
      obtain ⟨row', hrow', rfl⟩ := Option.map_eq_some_iff.mp h
      exact List.forall_mem_singleton.mpr (hchange row row' hrow hrow')
    | cons next rows =>
      obtain ⟨rows', hrows', rfl⟩ := Option.map_eq_some_iff.mp h
      exact List.forall_mem_cons.mpr ⟨hrow, ih hrows hrows'⟩

/-- Putting something that is present under a dotted key keeps a table present. -/
theorem arePresent_insert? {value : Document} (hvalue : value.IsPresent) {path : List String}
    (hentries : ArePresent entries) (h : insert? value key path entries = some entries') :
    ArePresent entries' := by
  induction path generalizing entries entries' with
  | nil =>
    rw [insert?] at h
    split at h
    · cases h
    · cases h
      exact List.forall_mem_append.mpr ⟨hentries, List.forall_mem_singleton.mpr hvalue⟩
  | cons name path ih =>
    rw [insert?] at h
    split at h
    · obtain ⟨inner, hinner, rfl⟩ := Option.map_eq_some_iff.mp h
      have hinner := ih arePresent_nil hinner
      refine List.forall_mem_append.mpr ⟨hentries, List.forall_mem_singleton.mpr ?_⟩
      exact isPresent_table_iff.mpr hinner
    · cases h
    · rename_i kind inner hfind
      split at h
      · cases h
      · obtain ⟨inner', hinner', rfl⟩ := Option.map_eq_some_iff.mp h
        have hinner := isPresent_table_iff.mp (isPresent_of_find? hentries hfind)
        exact arePresent_put hentries (isPresent_table_iff.mpr (ih hinner hinner'))
    · rename_i rows hfind
      split at h
      · cases h
      · obtain ⟨rows', hrows', rfl⟩ := Option.map_eq_some_iff.mp h
        have hrows := isPresent_rows_iff.mp (isPresent_of_find? hentries hfind)
        refine arePresent_put hentries (isPresent_rows_iff.mpr ?_)
        exact arePresent_changeLast? (fun _ _ hrow => ih hrow) hrows hrows'

section

variable {isArray : Bool} {fill : Entries → Option Entries}

/-- Stating a table keeps the table around it present if filling it does. -/
theorem arePresent_stateTable?
    (hfill : ∀ row row', ArePresent row → fill row = some row' → ArePresent row')
    (hentries : ArePresent entries) (h : stateTable? isArray fill key entries = some entries') :
    ArePresent entries' := by
  unfold stateTable? at h
  split at h
  · obtain ⟨inner, hinner, rfl⟩ := Option.map_eq_some_iff.mp h
    have hinner := hfill _ _ arePresent_nil hinner
    exact arePresent_putLast hentries (isPresent_table_iff.mpr hinner)
  · obtain ⟨row, hrow, rfl⟩ := Option.map_eq_some_iff.mp h
    have hrow := hfill _ _ arePresent_nil hrow
    exact arePresent_put hentries (isPresent_rows_iff.mpr (List.forall_mem_singleton.mpr hrow))
  · rename_i inner hfind
    obtain ⟨inner', hinner', rfl⟩ := Option.map_eq_some_iff.mp h
    have hinner := isPresent_table_iff.mp (isPresent_of_find? hentries hfind)
    exact arePresent_putLast hentries (isPresent_table_iff.mpr (hfill _ _ hinner hinner'))
  · rename_i rows hfind
    obtain ⟨row, hrow, rfl⟩ := Option.map_eq_some_iff.mp h
    have hrow := hfill _ _ arePresent_nil hrow
    have hrows := isPresent_rows_iff.mp (isPresent_of_find? hentries hfind)
    refine arePresent_put hentries (isPresent_rows_iff.mpr (List.forall_mem_append.mpr ?_))
    exact ⟨hrows, List.forall_mem_singleton.mpr hrow⟩
  · cases h

/-- Filling the table under a header keeps the table around it present. -/
theorem arePresent_section?
    (hfill : ∀ row row', ArePresent row → fill row = some row' → ArePresent row')
    {path : List String} (hentries : ArePresent entries)
    (h : section? isArray fill key path entries = some entries') : ArePresent entries' := by
  induction path generalizing entries entries' with
  | nil => exact arePresent_stateTable? hfill hentries h
  | cons name path ih =>
    rw [section?] at h
    split at h
    · obtain ⟨inner, hinner, rfl⟩ := Option.map_eq_some_iff.mp h
      exact arePresent_put hentries (isPresent_table_iff.mpr (ih arePresent_nil hinner))
    · cases h
    · rename_i kind inner hfind
      obtain ⟨inner', hinner', rfl⟩ := Option.map_eq_some_iff.mp h
      have hinner := isPresent_table_iff.mp (isPresent_of_find? hentries hfind)
      exact arePresent_put hentries (isPresent_table_iff.mpr (ih hinner hinner'))
    · rename_i rows hfind
      obtain ⟨rows', hrows', rfl⟩ := Option.map_eq_some_iff.mp h
      have hrows := isPresent_rows_iff.mp (isPresent_of_find? hentries hfind)
      refine arePresent_put hentries (isPresent_rows_iff.mpr ?_)
      exact arePresent_changeLast? (fun _ _ hrow => ih hrow) hrows hrows'

end

/-! ## Values -/

theorem isPresent_numberOrDate? {cs rest : List Char} {document : Document}
    (h : numberOrDate? cs = some (document, rest)) : document.IsPresent := by
  unfold numberOrDate? at h
  split at h
  · cases h
    exact ⟨nofun, trivial⟩
  · obtain ⟨_, -, ⟨⟩⟩ := Option.map_eq_some_iff.mp h
    exact nofun

/-- What is read as a value is present, and so is what an array or an inline table is read as if
what was read of it before is. -/
theorem isPresent_of_fuel (fuel : Nat) :
    (∀ levels cs document rest, value? fuel levels cs = some (document, rest) →
      document.IsPresent) ∧
    (∀ levels read cs document rest, (∀ item ∈ read, item.IsPresent) →
      items? fuel levels read cs = some (document, rest) → document.IsPresent) ∧
    ∀ levels entries cs document rest, ArePresent entries →
      fields? fuel levels entries cs = some (document, rest) → document.IsPresent := by
  induction fuel with
  | zero =>
    refine ⟨fun _ _ _ _ h => ?_, fun _ _ _ _ _ _ h => ?_, fun _ _ _ _ _ _ h => ?_⟩
    · simp [value?] at h
    · simp [items?] at h
    · simp [fields?] at h
  | succ fuel ih =>
    obtain ⟨hvalue, hitems, hfields⟩ := ih
    refine ⟨fun levels cs document rest h => ?_, fun levels read cs document rest hread h => ?_,
      fun levels entries cs document rest hentries h => ?_⟩
    · rw [value?.eq_def] at h
      dsimp only at h
      split at h
      · obtain ⟨_, -, ⟨⟩⟩ := Option.map_eq_some_iff.mp h
        exact nofun
      · obtain ⟨_, -, ⟨⟩⟩ := Option.map_eq_some_iff.mp h
        exact nofun
      · split at h
        · cases h
        · exact hitems _ _ _ _ _ (List.forall_mem_nil _) h
      · split at h
        · cases h
        · split at h
          · cases h
            trivial
          · exact hfields _ _ _ _ _ arePresent_nil h
      · cases h
        exact nofun
      · cases h
        exact nofun
      · exact isPresent_numberOrDate? h
    · rw [items?.eq_def] at h
      dsimp only at h
      split at h
      · cases h
        refine Document.allItems_iff.mpr fun item hitem => ?_
        exact hread item (List.mem_reverse.mp hitem)
      · simp only [Option.bind_eq_bind, Option.bind_eq_some_iff, Prod.exists] at h
        obtain ⟨item, rest', hitem, h⟩ := h
        have hitem := hvalue _ _ _ _ hitem
        have hread := List.forall_mem_cons.mpr ⟨hitem, hread⟩
        split at h
        · exact hitems _ _ _ _ _ hread h
        · cases h
          refine Document.allItems_iff.mpr fun item hitem => ?_
          exact hread item (List.mem_reverse.mp hitem)
        · cases h
    · rw [fields?] at h
      simp only [Option.bind_eq_bind, Option.bind_eq_some_iff, Prod.exists] at h
      obtain ⟨keys, rest₁, -, rest₂, -, value, rest₃, hread, entries', hinsert, h⟩ := h
      have hentries := arePresent_insert? (hvalue _ _ _ _ hread) hentries hinsert
      split at h
      · exact hfields _ _ _ _ _ hentries h
      · cases h
        exact isPresent_table_iff.mpr hentries
      · cases h

/-- Whatever is read as a value is present. -/
theorem isPresent_value? {fuel levels : Nat} {cs rest : List Char} {document : Document}
    (h : value? fuel levels cs = some (document, rest)) : document.IsPresent :=
  (isPresent_of_fuel fuel).1 levels cs document rest h

/-! ## Texts -/

/-- Nothing that a statement puts under a key is `null`. -/
def Statement.IsPresent : Statement → Prop
  | .header _ _ => True
  | .assign _ value => value.IsPresent

theorem isPresent_statementsFrom? {fuel : Nat} {read statements : List Statement}
    {cs : List Char} (hread : ∀ statement ∈ read, statement.IsPresent)
    (h : statementsFrom? fuel read cs = some statements) :
    ∀ statement ∈ statements, statement.IsPresent := by
  induction fuel generalizing read cs with
  | zero => cases h
  | succ fuel ih =>
    rw [statementsFrom?] at h
    split at h
    · cases h
      exact fun statement hstatement => hread statement (List.mem_reverse.mp hstatement)
    · simp only [Option.bind_eq_bind, Option.bind_eq_some_iff, Prod.exists] at h
      obtain ⟨statement, rest, hheader, rest', -, h⟩ := h
      refine ih (List.forall_mem_cons.mpr ⟨?_, hread⟩) h
      unfold header? at hheader
      split at hheader
      · simp only [Option.bind_eq_bind, Option.bind_eq_some_iff, Prod.exists] at hheader
        obtain ⟨_, _, -, _, -, _, -, ⟨⟩⟩ := hheader
        trivial
      · simp only [Option.bind_eq_bind, Option.bind_eq_some_iff, Prod.exists] at hheader
        obtain ⟨_, _, -, _, -, ⟨⟩⟩ := hheader
        trivial
    · simp only [Option.bind_eq_bind, Option.bind_eq_some_iff, Prod.exists] at h
      obtain ⟨statement, rest, hassignment, rest', -, h⟩ := h
      refine ih (List.forall_mem_cons.mpr ⟨?_, hread⟩) h
      simp only [assignment?, Option.bind_eq_bind, Option.bind_eq_some_iff, Prod.exists]
        at hassignment
      obtain ⟨_, _, -, _, -, _, _, hvalue, ⟨⟩⟩ := hassignment
      exact isPresent_value? hvalue

theorem arePresent_assignAll? {statements : List Statement}
    (hstatements : ∀ statement ∈ statements, statement.IsPresent) (hentries : ArePresent entries)
    (h : assignAll? statements entries = some entries') : ArePresent entries' := by
  induction statements generalizing entries with
  | nil =>
    cases h
    exact hentries
  | cons statement statements ih =>
    obtain ⟨hhead, htail⟩ := List.forall_mem_cons.mp hstatements
    cases statement with
    | header isArray keys =>
      cases h
      exact hentries
    | assign keys value =>
      obtain ⟨inserted, hinsert, h⟩ := Option.bind_eq_some_iff.mp h
      exact ih htail (arePresent_insert? hhead hentries hinsert) h

theorem arePresent_sections? {statements : List Statement}
    (hstatements : ∀ statement ∈ statements, statement.IsPresent) (hentries : ArePresent entries)
    (h : sections? statements entries = some entries') : ArePresent entries' := by
  induction statements generalizing entries with
  | nil =>
    cases h
    exact hentries
  | cons statement statements ih =>
    obtain ⟨-, htail⟩ := List.forall_mem_cons.mp hstatements
    cases statement with
    | assign keys value => exact ih htail hentries h
    | header isArray keys =>
      obtain ⟨filled, hsection, h⟩ := Option.bind_eq_some_iff.mp h
      refine ih htail (arePresent_section? ?_ hentries hsection) h
      exact fun row row' hrow hrow' => arePresent_assignAll? htail hrow hrow'

/-- Nothing in the document of a text is `null`. -/
theorem isPresent_document? {s : String} {document : Document} (h : document? s = some document) :
    document.IsPresent := by
  simp only [document?, root?, Option.bind_eq_bind, Option.bind_eq_some_iff, Option.pure_def,
    Option.some.injEq] at h
  obtain ⟨statements, hread, entries, ⟨assigned, hassigned, hsections⟩, rfl⟩ := h
  have hstatements : ∀ statement ∈ statements, statement.IsPresent :=
    isPresent_statementsFrom? (List.forall_mem_nil _) hread
  have hassigned := arePresent_assignAll? hstatements arePresent_nil hassigned
  exact isPresent_table_iff.mpr (arePresent_sections? hstatements hassigned hsections)

end Toml

end PriceQuote
