import CodeAtlas.Proofs.Matching
import Mathlib.Data.List.Forall2
import Mathlib.Data.List.ReduceOption

/-!
# The matches of a text

Searching goes from place to place: where a pattern does not match it steps on by one character
(`searchFrom_of_none`), and after a match it goes on where the match ended (`searchFrom_of_some`).

A pattern that is anchored matches only at the start of a line. If every line of a text is read in
one known way whatever the lines after it are (`ReadsLine`), then the matches in the text are those
of its lines, in order (`findAll_lines`).
-/

open List

namespace CodeAtlas.Pattern

open Cursor

variable {p q : Pattern} {bound : Nat} {c : Cursor} {m : Match}

/-! ## From place to place -/

theorem matchAt?_eq (p : Pattern) (bound : Nat) (c : Cursor) : matchAt? p bound false c =
      (advance bound p some ⟨c, []⟩).map fun t =>
        ⟨c.position, t.cursor.position, c.rest, t.captures⟩ := rfl

theorem matchAt?_eq_none_iff :
    matchAt? p bound false c = none ↔ advance bound p some ⟨c, []⟩ = none := by
  rw [matchAt?_eq, Option.map_eq_none_iff]

theorem Refuses.matchAt? (h : p.Refuses c.rest.head?) : matchAt? p bound false c = none :=
  matchAt?_eq_none_iff.mpr h.advance_eq_none

/-- `findFrom` a place on, where no match came before. -/
def searchFrom (p : Pattern) (bound : Nat) (c : Cursor) : List Match :=
  findFrom p bound c.position c.before c.position c.rest

theorem findAll_eq_searchFrom (p : Pattern) (text : List Char) :
    p.findAll text = p.searchFrom text.length (start text) := rfl

theorem resumeAfter_eq_max (resume : Nat) (found : List Match) :
    resumeAfter resume found = max resume (resumeAfter 0 found) := by
  unfold resumeAfter
  induction found generalizing resume with
  | nil => simp
  | cons m found ih =>
    rw [foldl_cons, foldl_cons, ih, ih (max 0 m.stop)]
    omega

variable {resume position : Nat} {rest taken : List Char}

/-- `findFrom`, if it may begin earlier, begins here. -/
theorem findFrom_of_le (h : resume ≤ position) (before : Option Char) (rest : List Char) :
    findFrom p bound resume before position rest =
      findFrom p bound position before position rest := by
  induction rest generalizing resume before position with
  | nil => simp [findFrom, Nat.not_lt.mpr h]
  | cons d rest ih =>
    rw [findFrom, findFrom]
    simp only [Nat.not_lt.mpr h, Nat.lt_irrefl, if_false]
    generalize matchesAt p bound ⟨before, position, d :: rest⟩ = here
    rw [resumeAfter_eq_max resume, resumeAfter_eq_max position]
    by_cases hfar : resumeAfter 0 here ≤ position + 1
    · -- wherever the matches here end, the next place is tried
      have hnear : max resume (resumeAfter 0 here) ≤ position + 1 := by omega
      have hnear' : max position (resumeAfter 0 here) ≤ position + 1 := by omega
      rw [ih hnear, ih hnear']
    · have hmax : max resume (resumeAfter 0 here) = max position (resumeAfter 0 here) := by omega
      rw [hmax]

/-- `findFrom` passes over places before the end of the last match. -/
theorem findFrom_skip (taken : List Char) (h : position + taken.length ≤ resume)
    (before : Option Char) (rest : List Char) :
    findFrom p bound resume before position (taken ++ rest) =
      findFrom p bound resume (taken.getLast?.or before) (position + taken.length) rest := by
  induction taken generalizing before position with
  | nil => rfl
  | cons d taken ih =>
    rw [length_cons] at h
    have hbefore : position < resume := by omega
    have hlast : (d :: taken).getLast?.or before = taken.getLast?.or (some d) := by
      cases taken <;> simp [getLast?_cons]
    rw [cons_append, findFrom]
    simp only [hbefore, if_true, nil_append]
    have hresume : resumeAfter resume [] = resume := rfl
    rw [hresume, ih (by omega), hlast, length_cons]
    congr 1
    omega

/-- At a place without a match `searchFrom` goes on by one character. -/
theorem searchFrom_of_none {d : Char} (hrest : c.rest = d :: rest)
    (h : matchAt? p bound false c = none) :
    searchFrom p bound c = searchFrom p bound (c.pass [d] rest) := by
  have hmatches : matchesAt p bound ⟨c.before, c.position, d :: rest⟩ = [] := by
    rw [← hrest]
    show matchesAt p bound c = []
    rw [matchesAt, h]
  unfold searchFrom
  rw [hrest, findFrom]
  simp only [Nat.lt_irrefl, if_false, hmatches, nil_append]
  exact findFrom_of_le (Nat.le_succ _) _ _

/-- After a match `searchFrom` goes on where the match ended. -/
theorem searchFrom_of_some (hrest : c.rest = taken ++ rest) (hne : taken ≠ [])
    (h : matchAt? p bound false c = some m) (hstop : m.stop = c.position + taken.length) :
    searchFrom p bound c = m :: searchFrom p bound (c.pass taken rest) := by
  obtain ⟨d, taken, rfl⟩ := exists_cons_of_ne_nil hne
  have hstart : m.start = c.position := by
    rw [matchAt?_eq, Option.map_eq_some_iff] at h
    obtain ⟨t, -, rfl⟩ := h
    rfl
  rw [length_cons] at hstop
  have hmatches : matchesAt p bound ⟨c.before, c.position, d :: (taken ++ rest)⟩ = [m] := by
    rw [← cons_append, ← hrest]
    show matchesAt p bound c = [m]
    rw [matchesAt, h]
    simp only
    rw [if_neg (by omega)]
  unfold searchFrom
  rw [hrest, cons_append, findFrom]
  simp only [Nat.lt_irrefl, if_false, hmatches, singleton_append, cons.injEq, true_and]
  have hresume : resumeAfter c.position [m] = m.stop := by
    show max c.position m.stop = m.stop
    omega
  have hlast : (d :: taken).getLast?.or c.before = taken.getLast?.or (some d) := by
    cases taken <;> simp [getLast?_cons]
  rw [hresume, findFrom_skip taken (by omega)]
  show _ = findFrom p bound (c.position + (d :: taken).length)
    ((d :: taken).getLast?.or c.before) (c.position + (d :: taken).length) rest
  have hposition : c.position + 1 + taken.length = m.stop := by omega
  rw [hlast, length_cons, hposition, ← hstop]

/-- At the end of the text there is at most a match of nothing. -/
theorem searchFrom_of_refuses (hrest : c.rest = []) (h : p.Refuses none) :
    searchFrom p bound c = [] := by
  have hnone : matchAt? p bound false c = none := Refuses.matchAt? (by rw [hrest]; exact h)
  have hmatches : matchesAt p bound ⟨c.before, c.position, []⟩ = [] := by
    rw [← hrest]
    show matchesAt p bound c = []
    rw [matchesAt, hnone]
  unfold searchFrom
  rw [hrest, findFrom]
  simp only [Nat.lt_irrefl, if_false, hmatches]

/-- `searchFrom` passes over places without a match. -/
theorem searchFrom_skip {gap : List Char} (hrest : c.rest = gap ++ rest)
    (hnone : ∀ passed d between, gap = passed ++ d :: between →
      matchAt? p bound false (c.pass passed (d :: between ++ rest)) = none) :
    searchFrom p bound c = searchFrom p bound (c.pass gap rest) := by
  induction gap generalizing c with
  | nil =>
    rw [nil_append] at hrest
    rw [← hrest, pass_nil]
  | cons d gap ih =>
    have hhere := hnone [] d gap rfl
    rw [← hrest, pass_nil] at hhere
    rw [searchFrom_of_none hrest hhere, ih rfl, pass_pass, singleton_append]
    intro passed e between hgap
    rw [pass_pass, singleton_append]
    exact hnone (d :: passed) e between (by rw [hgap, cons_append])

/-- Without a match at any place `searchFrom` finds nothing. -/
theorem searchFrom_eq_nil (h : ∀ taken rest, c.rest = taken ++ rest →
    matchAt? p bound false (c.pass taken rest) = none) : searchFrom p bound c = [] := by
  have hskip : searchFrom p bound c = searchFrom p bound (c.pass c.rest []) := by
    refine searchFrom_skip (append_nil _).symm fun passed d between hsplit => ?_
    exact h passed _ (by rw [hsplit, append_nil])
  have hend : matchesAt p bound (c.pass c.rest []) = [] := by
    rw [matchesAt, h c.rest [] (append_nil _).symm]
  rw [hskip, searchFrom]
  show (if _ < _ then [] else matchesAt p bound (c.pass c.rest [])) = []
  rw [hend, ite_self]

/-- **`searchFrom` comes to every place that no match reaches beyond.** -/
theorem exists_searchFrom_append {gap rest : List Char} (hrest : c.rest = gap ++ rest)
    (h : ∀ passed left m, gap = passed ++ left → left ≠ [] →
      matchAt? p bound false (c.pass passed (left ++ rest)) = some m →
        m.start < m.stop ∧ m.stop ≤ c.position + gap.length) :
    ∃ found, searchFrom p bound c = found ++ searchFrom p bound (c.pass gap rest) ∧
      ∀ m ∈ found, m.stop ≤ c.position + gap.length := by
  induction hlength : gap.length using Nat.strongRecOn generalizing c gap with
  | ind length ih =>
    cases gap with
    | nil =>
      rw [nil_append] at hrest
      rw [← hrest, pass_nil]
      exact ⟨[], rfl, by simp⟩
    | cons d gap =>
      -- the search goes on by one character or by a match
      have hmoves : ∃ found taken left, d :: gap = taken ++ left ∧ taken ≠ [] ∧
          searchFrom p bound c = found ++ searchFrom p bound (c.pass taken (left ++ rest)) ∧
            ∀ m ∈ found, m.stop ≤ c.position + (d :: gap).length := by
        cases hmatch : matchAt? p bound false c with
        | none => exact ⟨[], [d], gap, rfl, by simp, searchFrom_of_none hrest hmatch, by simp⟩
        | some m =>
          obtain ⟨t, -, rfl⟩ := exists_way_of_matchAt? hmatch
          obtain ⟨hlow, hhigh⟩ := h [] (d :: gap) _ rfl (by simp)
            (by rw [← hrest, pass_nil]; exact hmatch)
          have hlow : c.position < (Match.ofWay c t).stop := hlow
          refine ⟨[.ofWay c t], (d :: gap).take ((Match.ofWay c t).stop - c.position),
            (d :: gap).drop ((Match.ofWay c t).stop - c.position),
            (take_append_drop _ _).symm, ?_, ?_, by simpa using hhigh⟩
          · simp
            omega
          · refine searchFrom_of_some ?_ ?_ hmatch ?_
            · rw [hrest, ← append_assoc, take_append_drop]
            · simp
              omega
            · rw [length_take]
              omega
      obtain ⟨found, taken, left, hsplit, hne, hsearch, hfound⟩ := hmoves
      have hlengths : (d :: gap).length = taken.length + left.length := by
        rw [hsplit, length_append]
      have hpositive := length_pos_iff.mpr hne
      obtain ⟨found', hsearch', hfound'⟩ := @ih left.length (by omega)
        (c.pass taken (left ++ rest)) left rfl (fun passed left' m hleft hne' hm => by
          rw [pass_pass] at hm
          have hstop := h (taken ++ passed) left' m (by rw [hsplit, hleft, append_assoc])
            hne' hm
          show _ ∧ m.stop ≤ c.position + taken.length + left.length
          omega) rfl
      refine ⟨found ++ found', ?_, ?_⟩
      · rw [hsearch, hsearch', pass_pass, ← hsplit, append_assoc]
      · intro m hm
        rcases mem_append.mp hm with hm | hm
        · rw [← hlength]
          exact hfound m hm
        · have hstop : m.stop ≤ c.position + taken.length + left.length := hfound' m hm
          omega

/-! ## Lines -/

def Cursor.AtLineStart (c : Cursor) : Prop :=
  c.before = none ∨ c.before = some '\n'

/-- A pattern that matches only at the start of a line. -/
def Anchored (p : Pattern) : Prop :=
  ∀ (bound : Nat) (next : State → Option State) (s : State), ¬ s.cursor.AtLineStart →
    advance bound p next s = none

theorem anchored_lineStart : Anchored lineStart := by
  intro bound next s hnot
  rw [lineStart, advance, if_neg]
  rw [Bool.or_eq_true, beq_iff_eq, beq_iff_eq]
  exact hnot

theorem Anchored.append (h : Anchored p) (q : Pattern) : Anchored (p ++ q) := by
  intro bound next s hnot
  rw [advance_append]
  exact h bound _ s hnot

/-- The first link of a chain of patterns. -/
def lead : Pattern → Pattern
  | both first _ => first.lead
  | p => p

/-- A chain is `Anchored` by its first link. -/
theorem anchored_of_lead (h : p.lead = lineStart) : Anchored p := by
  fun_induction lead p with
  | case1 first second ih => exact (ih h).append second
  | case2 p _ => exact h ▸ anchored_lineStart

theorem advance_lineStart {next : State → Option State} {s : State} (h : s.cursor.AtLineStart) :
    advance bound lineStart next s = next s := by
  refine advance_edge ?_
  rw [Bool.or_eq_true, beq_iff_eq, beq_iff_eq]
  exact h

/-- An `Anchored` pattern passes over what is left of a line. -/
theorem Anchored.searchFrom_line (hp : Anchored p) (hc : ¬ c.AtLineStart) {line : List Char}
    (hline : '\n' ∉ line) (hrest : c.rest = line ++ rest) :
    searchFrom p bound c = searchFrom p bound (c.pass line rest) := by
  refine searchFrom_skip hrest fun passed d between hsplit => ?_
  refine matchAt?_eq_none_iff.mpr (hp bound some _ ?_)
  -- what precedes such a place is in the line, or precedes it all
  rintro (hnone | hfeed)
  · cases hlast : passed.getLast? with
    | none =>
      refine hc (.inl ?_)
      simpa [Cursor.pass, hlast] using hnone
    | some e => simp [Cursor.pass, hlast] at hnone
  · cases hlast : passed.getLast? with
    | none =>
      refine hc (.inr ?_)
      simpa [Cursor.pass, hlast] using hfeed
    | some e =>
      have he : e = '\n' := by simpa [Cursor.pass, hlast] using hfeed
      refine hline ?_
      rw [hsplit, ← he]
      exact mem_append_left _ (mem_of_getLast? hlast)

/-- How a pattern reads a line wherever the line stands: it does not match at its start, or it
matches a part of it and the match has a known meaning. -/
def ReadsLine {β : Type} (p : Pattern) (meaning : Match → β) (line : List Char) :
    Option β → Prop
  | none => ∀ (bound : Nat) (c : Cursor) (rest : List Char), c.AtLineStart → c.rest = line ++ rest →
      matchAt? p bound false c = none
  | some b => ∀ (bound : Nat) (c : Cursor) (rest : List Char), c.AtLineStart →
      c.rest = line ++ rest →
      ∃ m taken more, line = taken ++ more ∧ taken ≠ [] ∧ matchAt? p bound false c = some m ∧
        m.stop = c.position + taken.length ∧ meaning m = b

/-- The text of lines: they are divided by line feeds, and the last one may be ended by one, too. -/
def linesText (lines : List (List Char)) (ended : Bool) : List Char :=
  Text.joinWith ['\n'] lines ++ if ended then ['\n'] else []

theorem Cursor.not_atLineStart_pass (hne : taken ≠ []) (hline : '\n' ∉ taken) (c : Cursor)
    (rest : List Char) : ¬ (c.pass taken rest).AtLineStart := by
  obtain ⟨front, e, rfl⟩ := (eq_nil_or_concat taken).resolve_left hne
  have hbefore : (c.pass (front.concat e) rest).before = some e := by simp [Cursor.pass]
  rintro (hnone | hfeed)
  · rw [hbefore] at hnone
    cases hnone
  · rw [hbefore, Option.some.injEq] at hfeed
    exact hline (by simp [hfeed])

section ReadsLine

variable {β : Type} {meaning : Match → β} {line : List Char} {out : Option β}

theorem ReadsLine.searchFrom (h : ReadsLine p meaning line out) (hp : Anchored p)
    (hne : line ≠ []) (hline : '\n' ∉ line) {rest : List Char} (hc : c.AtLineStart)
    (hrest : c.rest = line ++ rest) : (searchFrom p bound c).map meaning =
      out.toList ++ (searchFrom p bound (c.pass line rest)).map meaning := by
  cases out with
  | none =>
    obtain ⟨d, line, rfl⟩ := exists_cons_of_ne_nil hne
    have hd : '\n' ∉ [d] := fun hd => hline (mem_append_left line hd)
    have hmore : '\n' ∉ line := fun hmem => hline (mem_cons_of_mem d hmem)
    have hnone := h bound c rest hc hrest
    rw [cons_append] at hrest
    rw [searchFrom_of_none hrest hnone,
      hp.searchFrom_line (c.not_atLineStart_pass (by simp) hd _) hmore rfl, pass_pass]
    rfl
  | some b =>
    obtain ⟨m, taken, more, rfl, htaken, hmatch, hstop, hmeaning⟩ := h bound c rest hc hrest
    have hline' : '\n' ∉ taken := fun hmem => hline (mem_append_left _ hmem)
    have hmore : '\n' ∉ more := fun hmem => hline (mem_append_right _ hmem)
    rw [append_assoc] at hrest
    rw [searchFrom_of_some hrest htaken hmatch hstop,
      hp.searchFrom_line (c.not_atLineStart_pass htaken hline' _) hmore rfl, pass_pass,
      map_cons, hmeaning]
    rfl

/-- **The matches in lines.** Where every line is read in one way, `findAll` has the matches of an
`Anchored` pattern in the lines. -/
theorem findAll_lines (hp : Anchored p) (hend : p.Refuses none) {lines : List (List Char)}
    {outs : List (Option β)} (h : Forall₂ (ReadsLine p meaning) lines outs)
    (hlines : ∀ line ∈ lines, line ≠ [] ∧ '\n' ∉ line) (hne : lines ≠ []) (ended : Bool) :
    (p.findAll (linesText lines ended)).map meaning = outs.reduceOption := by
  have hsearch : ∀ (bound : Nat) (c : Cursor), c.AtLineStart → c.rest = linesText lines ended →
      (searchFrom p bound c).map meaning = outs.reduceOption := by
    intro bound
    induction h with
    | nil => exact absurd rfl hne
    | @cons line out lines outs hread hreads ih =>
      intro c hc hrest
      obtain ⟨hline, hfeed⟩ := hlines line mem_cons_self
      have hout : (out :: outs).reduceOption = out.toList ++ outs.reduceOption := by
        cases out <;> rfl
      rw [hout]
      cases hreads with
      | nil =>
        -- the last line: nothing follows it but, perhaps, its end
        have hlast : c.rest = line ++ if ended then ['\n'] else [] := by rw [hrest]; rfl
        rw [hread.searchFrom hp hline hfeed hc hlast]
        have hstart := c.not_atLineStart_pass hline hfeed (if ended then ['\n'] else [])
        have hnil : searchFrom p bound (c.pass line (if ended then ['\n'] else [])) = [] := by
          cases ended with
          | false => exact searchFrom_of_refuses rfl hend
          | true =>
            have hnone : matchAt? p bound false (c.pass line ['\n']) = none :=
              matchAt?_eq_none_iff.mpr (hp bound some _ hstart)
            show searchFrom p bound (c.pass line ['\n']) = []
            rw [searchFrom_of_none rfl hnone]
            exact searchFrom_of_refuses rfl hend
        rw [hnil]
        rfl
      | @cons line' out' lines' outs' hread' hreads' =>
        have htext : linesText (line :: line' :: lines') ended =
            line ++ '\n' :: linesText (line' :: lines') ended := by
          simp [linesText, Text.joinWith]
        rw [htext] at hrest
        rw [hread.searchFrom hp hline hfeed hc hrest]
        have hstart := c.not_atLineStart_pass hline hfeed
          ('\n' :: linesText (line' :: lines') ended)
        have hnone : matchAt? p bound false
            (c.pass line ('\n' :: linesText (line' :: lines') ended)) = none :=
          matchAt?_eq_none_iff.mpr (hp bound some _ hstart)
        rw [searchFrom_of_none rfl hnone,
          ih (fun l hl => hlines l (mem_cons_of_mem _ hl)) (by simp) _ (.inr rfl) rfl]
  rw [findAll_eq_searchFrom]
  exact hsearch _ _ (.inl rfl) rfl

end ReadsLine

end CodeAtlas.Pattern
