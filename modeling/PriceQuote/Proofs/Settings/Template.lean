import PriceQuote.Proofs.Fallible
import PriceQuote.Settings.Template

/-!
# Filling templates

A text with its references taken apart is a `Layout`: literal text that opens no name, a name that
is closed at the first brace, and so on. Each text has one, and filling a template puts a value in
the place of each of its names, once:

* `literalPieces_open`, `namePieces_close`: how far literal text and names reach;
* `pieces_text`: the parts of a text are those of its layout;
* `exists_layout`, `Layout.eq_of_text`: each text has one layout;
* `fill_text`: what filling comes to, along the layout;
* `fill_substitutes`: said of all names at once.
-/

namespace PriceQuote.Template

/-- No variable is named in a text. -/
def IsLiteral (text : String) : Prop :=
  ¬ ['$', '{'] <:+: text.toList

/-! ## Reading parts -/

theorem literalPieces_cons {c : Char} {cs : List Char} (h : ¬ ['$', '{'] <+: c :: cs)
    (read : List Char) : literalPieces read (c :: cs) = literalPieces (c :: read) cs := by
  conv_lhs => unfold literalPieces
  split
  · rename_i heq
    cases heq
  · rename_i rest heq
    cases heq
    exact absurd ⟨rest, rfl⟩ h
  · rename_i heq
    cases heq
    rfl

theorem literalPieces_eq_singleton {read cs : List Char} (h : ¬ ['$', '{'] <:+: cs) :
    literalPieces read cs = [.literal (String.ofList (read.reverse ++ cs))] := by
  induction cs generalizing read with
  | nil => rw [literalPieces, List.append_nil]
  | cons c cs ih =>
    have hrest : ¬ ['$', '{'] <:+: cs := fun hwithin =>
      h (hwithin.trans (List.suffix_cons c cs).isInfix)
    rw [literalPieces_cons (fun hopen => h hopen.isInfix), ih hrest, List.reverse_cons,
      List.append_assoc, List.singleton_append]

/-- Literal text reaches to where a name opens. -/
theorem literalPieces_open {literal : List Char} (h : ¬ ['$', '{'] <:+: literal)
    (read rest : List Char) : literalPieces read (literal ++ '$' :: '{' :: rest) =
      .literal (String.ofList (read.reverse ++ literal)) :: namePieces [] rest := by
  induction literal generalizing read with
  | nil => rw [List.nil_append, literalPieces, List.append_nil]
  | cons c literal ih =>
    have hrest : ¬ ['$', '{'] <:+: literal := fun hwithin =>
      h (hwithin.trans (List.suffix_cons c literal).isInfix)
    -- The last character before the name may be a `$` too; the name opens at the second one.
    have hopen : ¬ ['$', '{'] <+: c :: (literal ++ '$' :: '{' :: rest) := by
      intro hopen
      cases literal with
      | nil => simp at hopen
      | cons d literal =>
        simp only [List.cons_append, List.cons_prefix_cons] at hopen
        obtain ⟨rfl, rfl, -⟩ := hopen
        exact h ⟨[], literal, rfl⟩
    rw [List.cons_append, literalPieces_cons hopen, ih hrest, List.reverse_cons,
      List.append_assoc, List.singleton_append]

/-- A name reaches to the first brace that closes it. -/
theorem namePieces_close {name : List Char} (h : '}' ∉ name) (read rest : List Char) :
    namePieces read (name ++ '}' :: rest) =
      .reference (String.ofList (read.reverse ++ name)) :: literalPieces [] rest := by
  induction name generalizing read with
  | nil => rw [List.nil_append, namePieces, List.append_nil]
  | cons c name ih =>
    rw [List.mem_cons, not_or] at h
    rw [List.cons_append, namePieces, ih h.2, List.reverse_cons, List.append_assoc,
      List.singleton_append]
    exact fun e => h.1 e.symm

theorem namePieces_unclosed {name : List Char} (h : '}' ∉ name) (read : List Char) :
    namePieces read name = [.unterminated] := by
  induction name generalizing read with
  | nil => rw [namePieces]
  | cons c name ih =>
    rw [List.mem_cons, not_or] at h
    rw [namePieces, ih h.2]
    exact fun e => h.1 e.symm

/-! ## Layouts -/

/-- A text with its references taken apart. -/
inductive Layout where
  | literal (text : String)
  | unclosed (text name : String)
  | reference (text name : String) (rest : Layout)

namespace Layout

def text : Layout → String
  | literal text => text
  | unclosed text name => text ++ r"${" ++ name
  | reference text name rest => text ++ r"${" ++ name ++ r"}" ++ rest.text

/-- Literal text opens no name, and no name is closed before its end. -/
def IsProper : Layout → Prop
  | literal text => IsLiteral text
  | unclosed text name => IsLiteral text ∧ '}' ∉ name.toList
  | reference text name rest => IsLiteral text ∧ '}' ∉ name.toList ∧ rest.IsProper

def names : Layout → List String
  | literal _ | unclosed _ _ => []
  | reference _ name rest => name :: rest.names

def IsClosed : Layout → Prop
  | literal _ => True
  | unclosed _ _ => False
  | reference _ _ rest => rest.IsClosed

/-- The text with a value in the place of each name that is closed. -/
def filled (value : String → String) : Layout → String
  | literal text => text
  | unclosed text name => text ++ r"${" ++ name
  | reference text name rest => text ++ value name ++ rest.filled value

def pieces : Layout → List Piece
  | literal text => [.literal text]
  | unclosed text _ => [.literal text, .unterminated]
  | reference text name rest => .literal text :: .reference name :: rest.pieces

end Layout

/-- A text has the parts of its layout. -/
theorem pieces_text {layout : Layout} (h : layout.IsProper) :
    pieces layout.text = layout.pieces := by
  induction layout with
  | literal text =>
    rw [Layout.text, Template.pieces, literalPieces_eq_singleton h, List.reverse_nil,
      List.nil_append, String.ofList_toList, Layout.pieces]
  | unclosed text name =>
    have hchars : (Layout.unclosed text name).text.toList =
        text.toList ++ '$' :: '{' :: name.toList := by
      simp [Layout.text]
    rw [Template.pieces, hchars, literalPieces_open h.1, namePieces_unclosed h.2,
      List.reverse_nil, List.nil_append, String.ofList_toList, Layout.pieces]
  | reference text name rest ih =>
    obtain ⟨htext, hname, hrest⟩ := h
    have hchars : (Layout.reference text name rest).text.toList =
        text.toList ++ '$' :: '{' :: (name.toList ++ '}' :: rest.text.toList) := by
      simp [Layout.text]
    rw [Template.pieces] at ih
    rw [Template.pieces, hchars, literalPieces_open htext, namePieces_close hname, ih hrest,
      List.reverse_nil, List.nil_append, List.nil_append, String.ofList_toList,
      String.ofList_toList, Layout.pieces]

/-! ## The layout of a text -/

/-- The first place in a text where a name opens. -/
theorem exists_open {cs : List Char} (h : ['$', '{'] <:+: cs) :
    ∃ literal rest, cs = literal ++ '$' :: '{' :: rest ∧ ¬ ['$', '{'] <:+: literal := by
  induction cs with
  | nil => simp at h
  | cons c cs ih =>
    by_cases hopen : ['$', '{'] <+: c :: cs
    · obtain ⟨rest, hrest⟩ := hopen
      exact ⟨[], rest, hrest.symm, by simp⟩
    · obtain ⟨literal, rest, rfl, hliteral⟩ := ih ((List.infix_cons_iff.mp h).resolve_left hopen)
      refine ⟨c :: literal, rest, rfl, fun hwithin => ?_⟩
      obtain hfront | hwithin := List.infix_cons_iff.mp hwithin
      · exact hopen (hfront.trans (List.prefix_append (c :: literal) _))
      · exact hliteral hwithin

/-- Every text has a layout: up to the first name it is literal, and what is behind the name is
shorter. -/
theorem exists_layout (text : String) : ∃ layout : Layout, layout.IsProper ∧ layout.text = text := by
  by_cases hopen : ['$', '{'] <:+: text.toList
  · obtain ⟨literal, behind, htext, hliteral⟩ := exists_open hopen
    by_cases hclose : '}' ∈ behind
    · obtain ⟨name, rest, rfl, hname⟩ := List.eq_append_cons_of_mem hclose
      have hshorter : rest.length < text.length := by
        rw [← String.length_toList, htext]
        simp only [List.length_append, List.length_cons]
        omega
      obtain ⟨layout, hproper, hlayout⟩ := exists_layout (String.ofList rest)
      refine ⟨.reference (String.ofList literal) (String.ofList name) layout, ⟨?_, ?_, hproper⟩, ?_⟩
      · rwa [IsLiteral, String.toList_ofList]
      · rwa [String.toList_ofList]
      · apply String.toList_injective
        simp [Layout.text, hlayout, htext]
    · refine ⟨.unclosed (String.ofList literal) (String.ofList behind), ⟨?_, ?_⟩, ?_⟩
      · rwa [IsLiteral, String.toList_ofList]
      · rwa [String.toList_ofList]
      · apply String.toList_injective
        simp [Layout.text, htext]
  · exact ⟨.literal text, hopen, rfl⟩
termination_by text.length

/-- A text has one layout only: its parts tell how far literal text and names reach. -/
theorem Layout.eq_of_text {a b : Layout} (ha : a.IsProper) (hb : b.IsProper)
    (h : a.text = b.text) : a = b := by
  induction a generalizing b with
  | literal text =>
    have hpieces := pieces_text ha
    rw [h, pieces_text hb] at hpieces
    cases b with
    | literal text' => exact congrArg literal h
    | unclosed text' name' => cases hpieces
    | reference text' name' rest' => cases hpieces
  | unclosed text name =>
    have hpieces := pieces_text ha
    rw [h, pieces_text hb] at hpieces
    cases b with
    | literal text' => cases hpieces
    | unclosed text' name' =>
      cases hpieces
      rw [Layout.text, Layout.text, String.append_right_inj] at h
      rw [h]
    | reference text' name' rest' => cases hpieces
  | reference text name rest ih =>
    have hpieces := pieces_text ha
    rw [h, pieces_text hb] at hpieces
    cases b with
    | literal text' => cases hpieces
    | unclosed text' name' => cases hpieces
    | reference text' name' rest' =>
      simp only [Layout.pieces, List.cons.injEq, Piece.literal.injEq,
        Piece.reference.injEq] at hpieces
      obtain ⟨rfl, rfl, -⟩ := hpieces
      rw [Layout.text, Layout.text, String.append_right_inj] at h
      rw [ih ha.2.2 hb.2.2 h]

/-! ## Filling -/

/-- What filling a text comes to: names get their values from left to right, up to the first that
has none. -/
def Layout.outcome (environment : String → Option String) : Layout → Except Problem String
  | literal text => .ok text
  | unclosed _ _ => .error .unterminated
  | reference text name rest =>
    match environment name with
    | none => .error (.unset name)
    | some value => (rest.outcome environment).map (text ++ value ++ ·)

/-- What parts of a text stand for, put together. -/
def joined (environment : String → Option String) (parts : List Piece) : Except Problem String :=
  (parts.mapM (Piece.value environment)).map String.join

theorem fill_eq_joined (environment : String → Option String) (text : String) :
    fill environment text = joined environment (pieces text) := by
  rw [fill, joined]
  cases (pieces text).mapM (Piece.value environment) <;> rfl

theorem joined_cons (environment : String → Option String) (part : Piece) (parts : List Piece) :
    joined environment (part :: parts) =
      part.value environment >>= fun value => (joined environment parts).map (value ++ ·) := by
  rw [joined, List.mapM_cons, joined]
  cases part.value environment with
  | error problem => rfl
  | ok value =>
    cases parts.mapM (Piece.value environment) with
    | error problem => rfl
    | ok values => exact congrArg Except.ok String.join_cons

/-- Filling a text follows its layout. -/
theorem fill_text {layout : Layout} (h : layout.IsProper)
    (environment : String → Option String) :
    fill environment layout.text = layout.outcome environment := by
  rw [fill_eq_joined, pieces_text h]
  clear h
  induction layout with
  | literal text =>
    rw [Layout.pieces, joined_cons]
    exact congrArg Except.ok String.append_empty
  | unclosed text name => rfl
  | reference text name rest ih =>
    rw [Layout.pieces, joined_cons, joined_cons, ih, Layout.outcome, Piece.value, Piece.value]
    cases environment name with
    | none => rfl
    | some value =>
      cases rest.outcome environment with
      | error problem => rfl
      | ok filled => exact congrArg Except.ok String.append_assoc.symm

/-! ## All names at once -/

/-- Where all names have values and are closed, these take their places. -/
theorem Layout.outcome_of_set {environment : String → Option String} {value : String → String}
    {layout : Layout} (hset : ∀ name ∈ layout.names, environment name = some (value name))
    (hclosed : layout.IsClosed) : layout.outcome environment = .ok (layout.filled value) := by
  induction layout with
  | literal text => rfl
  | unclosed text name => cases hclosed
  | reference text name rest ih =>
    obtain ⟨hname, hrest⟩ := List.forall_mem_cons.mp hset
    rw [outcome, hname, ih hrest hclosed, filled]
    rfl

theorem Layout.outcome_of_unset {environment : String → Option String} {layout : Layout}
    {before after : List String} {name : String} (hnames : layout.names = before ++ name :: after)
    (hbefore : ∀ other ∈ before, environment other ≠ none) (hname : environment name = none) :
    layout.outcome environment = .error (.unset name) := by
  induction layout generalizing before with
  | literal text => simp [names] at hnames
  | unclosed text unclosed => simp [names] at hnames
  | reference text first rest ih =>
    rw [names] at hnames
    cases before with
    | nil =>
      cases hnames
      rw [outcome, hname]
    | cons other before =>
      obtain ⟨rfl, hrest⟩ := List.cons.inj hnames
      obtain ⟨hfirst, hbefore⟩ := List.forall_mem_cons.mp hbefore
      obtain ⟨value, hvalue⟩ := Option.ne_none_iff_exists'.mp hfirst
      rw [outcome, hvalue, ih hrest hbefore]
      rfl

theorem Layout.outcome_of_unclosed {environment : String → Option String} {layout : Layout}
    (hset : ∀ name ∈ layout.names, environment name ≠ none) (hopen : ¬ layout.IsClosed) :
    layout.outcome environment = .error .unterminated := by
  induction layout with
  | literal text => exact absurd trivial hopen
  | unclosed text name => rfl
  | reference text name rest ih =>
    obtain ⟨hname, hrest⟩ := List.forall_mem_cons.mp hset
    obtain ⟨value, hvalue⟩ := Option.ne_none_iff_exists'.mp hname
    rw [outcome, hvalue, ih hrest hopen]
    rfl

theorem fill_of_isLiteral {environment : String → Option String} {text : String}
    (h : IsLiteral text) : fill environment text = .ok text := by
  have hproper : (Layout.literal text).IsProper := h
  exact fill_text hproper environment

/-- Filling a template is one substitution from left to right. A text is taken apart in one way, and
what it is filled to has the value of each name in the place of that name, whatever the value reads
like; if names lack values, the first of them is missing, and if none does, all have to be closed. A
text that names no variable stays as it is. -/
theorem fill_substitutes (environment : String → Option String) (text : String) :
    ∃ layout : Layout, (layout.IsProper ∧ layout.text = text) ∧
      (∀ other : Layout, other.IsProper ∧ other.text = text → other = layout) ∧
      (∀ value : String → String,
        (∀ name ∈ layout.names, environment name = some (value name)) → layout.IsClosed →
          fill environment text = .ok (layout.filled value)) ∧
      (∀ before name after, layout.names = before ++ name :: after →
        (∀ other ∈ before, environment other ≠ none) → environment name = none →
          fill environment text = .error (.unset name)) ∧
      ((∀ name ∈ layout.names, environment name ≠ none) → ¬ layout.IsClosed →
        fill environment text = .error .unterminated) ∧
      (IsLiteral text → fill environment text = .ok text) := by
  obtain ⟨layout, hproper, rfl⟩ := exists_layout text
  have hfill := fill_text hproper environment
  refine ⟨layout, ⟨hproper, rfl⟩,
    fun other hother => Layout.eq_of_text hother.1 hproper hother.2,
    fun value hset hclosed => ?_, fun before name after hnames hbefore hname => ?_,
    fun hset hopen => ?_, fill_of_isLiteral⟩
  · rw [hfill, Layout.outcome_of_set hset hclosed]
  · rw [hfill, Layout.outcome_of_unset hnames hbefore hname]
  · rw [hfill, Layout.outcome_of_unclosed hset hopen]

/-- A `$` before a name, a value that looks like a name, and a `$` at the end. -/
example : fill (fun name => if name = "A" then some "${B}" else none) r"$${A}}$" =
    .ok r"$${B}}$" := by
  decide +kernel

end PriceQuote.Template
