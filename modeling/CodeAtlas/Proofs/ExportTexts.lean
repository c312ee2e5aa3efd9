import CodeAtlas.Outline.JavaScript
import CodeAtlas.Proofs.Words

/-!
# Exports as written

An export is of a declaration, of a list of names in braces, or the default of a module: a name or
a declaration. What each form exports is defined here, beside what is reported for it. A declared
name is reported up to its first dollar sign, a declaration behind `async` is not reported, and for
a default declaration the keyword is reported. A list is read back: the commas divide its items, and
the name of an item is what follows its `as` (`commaList_items`, `exportedName_text`).
-/

open List

namespace CodeAtlas

namespace Text

/-! ## Cutting at a text -/

/-- `splitTextFrom` does not cut a text without spaces at one that begins with a space. -/
theorem splitTextFrom_append {text : List Char} (h : ' ' ∉ text) (separator piece rest : List Char) :
    splitTextFrom (' ' :: separator) 0 piece (text ++ rest) =
      splitTextFrom (' ' :: separator) 0 (text.reverse ++ piece) rest := by
  induction text generalizing piece with
  | nil => rfl
  | cons c text ih =>
    have hc : (' ' == c) = false := beq_eq_false_iff_ne.mpr fun heq => h (heq ▸ mem_cons_self)
    rw [cons_append, splitTextFrom, isPrefixOf, hc]
    simp only [Nat.lt_irrefl, Bool.false_and, Bool.false_eq_true, if_false]
    rw [ih fun hmem => h (mem_cons_of_mem _ hmem), reverse_cons, append_assoc]
    rfl

theorem splitText_of_not_mem {text : List Char} (h : ' ' ∉ text) (separator : List Char) :
    splitText (' ' :: separator) text = [text] := by
  have hall := splitTextFrom_append h separator [] []
  rw [append_nil, append_nil] at hall
  rw [splitText, hall, splitTextFrom, reverse_reverse]

theorem splitText_as {left right : List Char} (hleft : ' ' ∉ left) (hright : ' ' ∉ right) :
    splitText " as ".toList (left ++ " as ".toList ++ right) = [left, right] := by
  have hcut : ∀ piece, splitTextFrom " as ".toList 0 piece (" as ".toList ++ right) =
      piece.reverse :: splitText " as ".toList right := by
    intro piece
    simp [splitTextFrom, splitText]
  calc splitText " as ".toList (left ++ " as ".toList ++ right)
      = splitTextFrom " as ".toList 0 (left.reverse ++ []) (" as ".toList ++ right) := by
        rw [splitText, append_assoc]
        exact splitTextFrom_append hleft _ _ _
    _ = left :: splitText " as ".toList right := by
        rw [hcut, append_nil, reverse_reverse]
    _ = [left, right] := congrArg (left :: ·) (splitText_of_not_mem hright _)

end Text

namespace JavaScript

open Pattern Text

/-! ## Names -/

def isExportChar (c : Char) : Bool :=
  isAsciiWord c || c == '$'

def reservedWords : List String :=
  ["await", "break", "case", "catch", "class", "const", "continue", "debugger", "default", "delete",
    "do", "else", "enum", "export", "extends", "false", "finally", "for", "function", "if",
    "implements", "import", "in", "instanceof", "interface", "let", "new", "null", "package",
    "private", "protected", "public", "return", "static", "super", "switch", "this", "throw",
    "true", "try", "typeof", "var", "void", "while", "with", "yield"]

structure ExportName extends Run isExportChar where
  not_reserved : String.ofList text ∉ reservedWords

/-- An item of a list of exports, perhaps under another name. -/
structure ExportItem where
  name : ExportName
  alias? : Option ExportName

theorem isBlank_of_isExportChar {c : Char} (h : isExportChar c) : isBlank c = false := by
  rw [isExportChar, Bool.or_eq_true, beq_iff_eq] at h
  rcases h with h | rfl
  · exact isBlank_of_isAsciiWord h
  · decide

theorem ExportName.not_mem (n : ExportName) {c : Char} (hc : isExportChar c = false) :
    c ∉ n.text := by
  intro hmem
  rw [n.all c hmem] at hc
  cases hc

theorem ExportName.firm (n : ExportName) : Firm isBlank n.text :=
  .of_forall fun c hc => isBlank_of_isExportChar (n.all c hc)

namespace ExportItem

variable (i : ExportItem)

def text : List Char :=
  joinWith " as ".toList ((i.name :: i.alias?.toList).map fun n => n.text)

/-- The name under which an item is exported. -/
def exported : List Char :=
  (i.alias?.getD i.name).text

theorem exportedName_text : exportedName i.text = i.exported := by
  have hspace : ∀ n : ExportName, ' ' ∉ n.text := fun n => n.not_mem (by decide)
  obtain ⟨name, _ | a⟩ := i
  · exact congrArg (getLastD · []) (splitText_of_not_mem (hspace name) "as ".toList)
  · exact congrArg (getLastD · []) (splitText_as (hspace name) (hspace a))

theorem text_ne_nil : i.text ≠ [] := by
  obtain ⟨name, _ | a⟩ := i
  · exact name.ne_nil
  · exact append_ne_nil_of_right_ne_nil _ a.ne_nil

theorem firm : Firm isBlank i.text := by
  refine .joinWith fun piece hpiece => ?_
  obtain ⟨n, -, rfl⟩ := mem_map.mp hpiece
  exact ⟨n.ne_nil, n.firm⟩

/-- The characters of an item are those of names, and spaces. -/
theorem isExportChar_of_mem {c : Char} (h : c ∈ i.text) : isExportChar c ∨ c = ' ' := by
  rcases mem_joinWith h with hmid | ⟨piece, hpiece, hc⟩
  · have hall : ∀ d ∈ " as ".toList, isExportChar d ∨ d = ' ' := by decide
    exact hall c hmid
  · obtain ⟨n, -, rfl⟩ := mem_map.mp hpiece
    exact .inl (n.all c hc)

end ExportItem

/-! ## Exports -/

def declarationKeywords : List String :=
  ["const", "let", "var", "function", "class"]

def defaultKeywords : List String :=
  ["function", "class"]

/-- What follows the name in a declaration. -/
def declarationEnd (keyword : String) : List Char :=
  if keyword = "function" then "() \x7b\x7d".toList
  else if keyword = "class" then " \x7b\x7d".toList
  else " = 1".toList

/-- What is exported. -/
inductive ExportText where
  | declared (keyword : {w : String // w ∈ declarationKeywords}) (name : ExportName)
  | async (name : ExportName)
  | list (items : List ExportItem)
  | default (name : ExportName)
  | defaultDeclared (keyword : {w : String // w ∈ defaultKeywords}) (name : ExportName)

def itemsText (items : List ExportItem) : List Char :=
  ' ' :: (joinWith [',', ' '] (items.map ExportItem.text) ++ [' '])

theorem brace_not_mem_itemsText (items : List ExportItem) : '\x7d' ∉ itemsText items := by
  intro hmem
  simp only [itemsText, mem_cons, mem_append, not_mem_nil, or_false] at hmem
  rcases hmem with hspace | hjoined | hspace
  · exact absurd hspace (by decide)
  · rcases mem_joinWith hjoined with hcomma | ⟨piece, hpiece, hc⟩
    · exact absurd hcomma (by decide)
    · obtain ⟨i, -, rfl⟩ := mem_map.mp hpiece
      rcases i.isExportChar_of_mem hc with h | h
      · exact absurd h (by decide)
      · exact absurd h (by decide)
  · exact absurd hspace (by decide)

theorem commaList_items (items : List ExportItem) :
    (commaList (itemsText items)).map (fun item => String.ofList (exportedName item)) =
      items.map fun i => String.ofList i.exported := by
  have hpieces : ∀ piece ∈ items.map ExportItem.text,
      piece ≠ [] ∧ ',' ∉ piece ∧ Firm isBlank piece := by
    rintro _ hpiece
    obtain ⟨i, -, rfl⟩ := mem_map.mp hpiece
    refine ⟨i.text_ne_nil, fun hcomma => ?_, i.firm⟩
    rcases i.isExportChar_of_mem hcomma with h | h
    · exact absurd h (by decide)
    · exact absurd h (by decide)
  have hlist : commaList (itemsText items) = items.map ExportItem.text :=
    @commaList_enclosed _ hpieces [' '] [' '] (by decide) (by decide)
  rw [hlist, map_map]
  exact map_congr_left fun i _ => congrArg String.ofList i.exportedName_text

namespace ExportText

/-- The word or sign that follows the word `export`. -/
def opening : ExportText → String
  | declared keyword _ => keyword.1
  | async _ => "async"
  | list _ => "\x7b"
  | default _ | defaultDeclared _ _ => "default"

def remainder : ExportText → List Char
  | declared keyword name => ' ' :: (name.text ++ declarationEnd keyword.1)
  | async name => " function ".toList ++ (name.text ++ declarationEnd "function")
  | list items => itemsText items ++ ['\x7d']
  | default name => ' ' :: name.text
  | defaultDeclared keyword name =>
    ' ' :: (keyword.1.toList ++ ' ' :: (name.text ++ declarationEnd keyword.1))

/-- The names that are exported, apart from the default. -/
def names : ExportText → List (List Char)
  | declared _ name | async name => [name.text]
  | list items => items.map ExportItem.exported
  | default _ | defaultDeclared _ _ => []

def default? : ExportText → Option (List Char)
  | default name | defaultDeclared _ name => some name.text
  | declared _ _ | async _ | list _ => none

/-- What is reported for a declaration: the name up to its first dollar sign, unless it begins with
one. -/
def declared? : ExportText → Option (List Char)
  | declared _ name =>
    let word := name.text.takeWhile isAsciiWord
    if word = [] then none else some word
  | async _ | list _ | default _ | defaultDeclared _ _ => none

def listed : ExportText → List (List Char)
  | list items => items.map ExportItem.exported
  | declared _ _ | async _ | default _ | defaultDeclared _ _ => []

/-- What is reported as the default: what follows the word `default`. -/
def reportedDefault? : ExportText → Option (List Char)
  | default name => some name.text
  | defaultDeclared keyword _ => some keyword.1.toList
  | declared _ _ | async _ | list _ => none

end ExportText

end JavaScript

end CodeAtlas
