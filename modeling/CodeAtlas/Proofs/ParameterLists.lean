import CodeAtlas.Outline.Java
import CodeAtlas.Proofs.Words

/-!
# Parameters read back

A parameter is written as the words of its type and its name with spaces between them, and
parameters are written with commas between them. Texts without commas are read one by one
(`parameters_joinWith`), and no parameter that is read has a comma in its type
(`not_mem_type_of_mem_parameters`). So parameters are read back exactly if no type holds a comma,
which rules out generic types with two arguments (`parameters_read_back_iff`).
-/

open List

namespace CodeAtlas.Java

open Text

theorem parameter?_cons_space (text : List Char) : parameter? (' ' :: text) = parameter? text := by
  rw [parameter?, parameter?, words_cons_of_isBlank (by decide)]

theorem parameter?_of_words {text name : List Char} {type : List (List Char)} (hne : type ≠ [])
    (h : words text = type ++ [name]) :
    parameter? text = some ⟨String.ofList (joinWith [' '] type), String.ofList name⟩ := by
  have htwo : ¬ (type ++ [name]).length < 2 := by
    have hpos := length_pos_iff.mpr hne
    rw [length_append, length_singleton]
    omega
  rw [parameter?, h, if_neg htwo, dropLast_concat, getLastD_concat]

/-- `parameters` reads texts without commas that are written as a list one by one. -/
theorem parameters_joinWith {texts : List (List Char)} (h : ∀ text ∈ texts, ',' ∉ text) :
    parameters (joinWith [',', ' '] texts) = texts.filterMap parameter? := by
  cases texts with
  | nil => rfl
  | cons text texts =>
    rw [parameters, splitAt_joinWith_comma h, filterMap_cons, filterMap_cons, filterMap_map]
    simp only [Function.comp_def, parameter?_cons_space]

/-- `parameter?` takes the type from the text, but for spaces. -/
theorem mem_of_parameter? {text : List Char} {q : Parameter} (h : parameter? text = some q)
    {c : Char} (hspace : c ≠ ' ') (hc : c ∈ q.type.toList) : c ∈ text := by
  rw [parameter?] at h
  split at h
  · cases h
  · obtain rfl := Option.some.inj h
    rw [String.toList_ofList] at hc
    rcases mem_joinWith hc with hmem | ⟨word, hword, hmem⟩
    · exact absurd (mem_singleton.mp hmem) hspace
    · exact mem_of_mem_words (mem_of_mem_dropLast hword) hmem

theorem not_mem_type_of_mem_parameters {text : List Char} {q : Parameter}
    (h : q ∈ parameters text) : ',' ∉ q.type.toList := by
  obtain ⟨piece, hpiece, hq⟩ := mem_filterMap.mp h
  exact fun hc => not_mem_of_mem_splitAt hpiece (mem_of_parameter? hq (by decide) hc)

/-- A parameter with the words of its type. -/
structure ParameterText where
  type : List (List Char)
  name : List Char
  type_ne_nil : type ≠ []
  type_words : ∀ word ∈ type, IsOneWord word
  name_word : IsOneWord name
  name_plain : ',' ∉ name

namespace ParameterText

variable (p : ParameterText)

def text : List Char :=
  joinWith [' '] (p.type ++ [p.name])

def declares : Parameter :=
  ⟨String.ofList (joinWith [' '] p.type), String.ofList p.name⟩

theorem isOneWord {word : List Char} (h : word ∈ p.type ++ [p.name]) : IsOneWord word := by
  rcases mem_append.mp h with h | h
  · exact p.type_words word h
  · rw [mem_singleton.mp h]
    exact p.name_word

theorem words_text : words p.text = p.type ++ [p.name] := by
  rw [text, words_joinWith fun word hword => (p.isOneWord hword).solid, filter_eq_self]
  intro word hword
  simpa using (p.isOneWord hword).ne_nil

theorem parameter?_text : parameter? p.text = some p.declares :=
  parameter?_of_words p.type_ne_nil p.words_text

theorem not_mem_text (h : ∀ word ∈ p.type, ',' ∉ word) : ',' ∉ p.text := by
  intro hcomma
  rcases mem_joinWith hcomma with hspace | ⟨word, hword, hmem⟩
  · exact absurd hspace (by decide)
  · rcases mem_append.mp hword with hword | hword
    · exact h word hword hmem
    · exact p.name_plain (mem_singleton.mp hword ▸ hmem)

end ParameterText

/-- **Parameters are read back**, in order and each with its type and its name, exactly if no word
of a type holds a comma. -/
theorem parameters_read_back_iff (ps : List ParameterText) :
    parameters (joinWith [',', ' '] (ps.map ParameterText.text)) =
        ps.map ParameterText.declares ↔
      ∀ p ∈ ps, ∀ word ∈ p.type, ',' ∉ word := by
  constructor
  · intro h p hp word hword hcomma
    have hread : p.declares ∈ parameters (joinWith [',', ' '] (ps.map ParameterText.text)) :=
      h ▸ mem_map_of_mem hp
    refine not_mem_type_of_mem_parameters hread ?_
    rw [ParameterText.declares, String.toList_ofList]
    exact mem_joinWith_of_mem hword hcomma
  · intro h
    have hplain : ∀ text ∈ ps.map ParameterText.text, ',' ∉ text := by
      intro text htext
      obtain ⟨p, hp, rfl⟩ := mem_map.mp htext
      exact p.not_mem_text (h p hp)
    rw [parameters_joinWith hplain, filterMap_map, ← filterMap_eq_map]
    exact filterMap_congr fun p _ => p.parameter?_text

-- of a map from keys to values the key is lost, and the rest of the type is all that is left of it
example : parameters "Map<K, V> m, int n".toList = [⟨"V>", "m"⟩, ⟨"int", "n"⟩] := by
  decide

end CodeAtlas.Java
