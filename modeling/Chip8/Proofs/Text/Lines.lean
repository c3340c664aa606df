import Chip8.Text.Blank
import Mathlib.Data.List.Basic

/-!
# Lines of a text

What the lines of a text are is said here without cutting: the text is put together from them, with a line end after
each but a last line that is not empty (`Lined`). A carriage return and a line feed that follow one another are one line
end, so a carriage return stands alone only if no line feed comes after it. Main statements: `lined_iff`, by which the
lines that are cut are the lines of the text and there are no others, `lines_append`, by which characters in front of a
text stand in front of its first line, and `lines_append_newline`, by which two texts with a line feed between them have
their lines one after the other.
-/

namespace Chip8.Text

/-! ## Line ends -/

/-- What ends a line in front of the rest of a text: one character, or a carriage return and its line feed. -/
inductive Ends : List Char → List Char → Prop
  | single {c : Char} {rest : List Char} (hend : isLineEnd c = true) (halone : c = '\r' → rest.head? ≠ some '\n') :
    Ends [c] rest
  | pair {rest : List Char} : Ends ['\r', '\n'] rest

/-- A text and its lines. -/
inductive Lined : List Char → List (List Char) → Prop
  | empty : Lined [] []
  | last {line : List Char} (hne : line ≠ []) (hline : ∀ c ∈ line, isLineEnd c = false) : Lined line [line]
  | broken {line ending rest : List Char} {ls : List (List Char)} (hline : ∀ c ∈ line, isLineEnd c = false)
    (hends : Ends ending rest) (hrest : Lined rest ls) : Lined (line ++ (ending ++ rest)) (line :: ls)

variable {c : Char} {line front ending text rest : List Char} {ls : List (List Char)}

/-! ## Cutting -/

/-- The lines of a text with characters in front that end no line. -/
def prepend (front : List Char) : List (List Char) → List (List Char)
  | [] => [front]
  | line :: more => (front ++ line) :: more

theorem prepend_prepend (a b : List Char) (ls : List (List Char)) :
    prepend a (prepend b ls) = prepend (a ++ b) ls := by
  cases ls <;> simp [prepend]

theorem lines_cons (halone : c = '\r' → rest.head? ≠ some '\n') :
    lines (c :: rest) = if isLineEnd c then [] :: lines rest else prepend [c] (lines rest) := by
  rw [lines.eq_3 c rest fun more hc hrest => halone hc (by rw [hrest]; rfl)]
  cases lines rest <;> rfl

theorem lines_cons_of_inner (hc : isLineEnd c = false) : lines (c :: rest) = prepend [c] (lines rest) := by
  have halone : c = '\r' → rest.head? ≠ some '\n' := by
    rintro rfl
    cases hc
  rw [lines_cons halone, hc]
  rfl

/-- **Characters in front of a text stand in front of its first line.** -/
theorem lines_append (hne : front ≠ []) (hfront : ∀ c ∈ front, isLineEnd c = false) (rest : List Char) :
    lines (front ++ rest) = prepend front (lines rest) := by
  induction front with
  | nil => exact absurd rfl hne
  | cons c front ih =>
    obtain ⟨hc, hmore⟩ := List.forall_mem_cons.1 hfront
    rw [List.cons_append, lines_cons_of_inner hc]
    cases front with
    | nil => rfl
    | cons d more => rw [ih (List.cons_ne_nil d more) hmore, prepend_prepend, List.singleton_append]

theorem lines_ends_append (h : Ends ending rest) : lines (ending ++ rest) = [] :: lines rest := by
  cases h with
  | single hend halone => exact (lines_cons halone).trans (if_pos hend)
  | pair => rfl

/-- A line end in front of a text is an empty line, or it makes a pair with the line end the text begins with. -/
theorem lines_cons_of_isLineEnd (hend : isLineEnd c = true) (rest : List Char) :
    ∃ more, lines (c :: rest) = [] :: more ∧ (lines rest = more ∨ lines rest = [] :: more) := by
  by_cases hpair : c = '\r' ∧ rest.head? = some '\n'
  · obtain ⟨rfl, hhead⟩ := hpair
    obtain ⟨more, rfl⟩ := List.head?_eq_some_iff.1 hhead
    have hfeed : Ends ['\n'] more := .single rfl fun h => absurd h (by decide)
    exact ⟨lines more, lines_ends_append .pair, .inr (lines_ends_append hfeed)⟩
  · exact ⟨lines rest, lines_ends_append (.single hend fun hc hhead => hpair ⟨hc, hhead⟩), .inl rfl⟩

/-- The first line begins as the text does, if it is not empty. -/
theorem head?_headD_lines (h : ((lines text).headD []).head? = some c) : text.head? = some c := by
  cases text with
  | nil => cases h
  | cons d rest =>
    cases hd : isLineEnd d with
    | true =>
      obtain ⟨more, hlines, -⟩ := lines_cons_of_isLineEnd hd rest
      rw [hlines] at h
      cases h
    | false =>
      rw [lines_cons_of_inner hd] at h
      cases hlines : lines rest <;> rw [hlines] at h <;> exact h

/-! ## The lines of a text -/

theorem Lined.ends_append (hends : Ends ending rest) (hrest : Lined rest ls) : Lined (ending ++ rest) ([] :: ls) :=
  .broken (List.forall_mem_nil _) hends hrest

theorem Lined.cons (hc : isLineEnd c = false) (h : Lined text ls) : Lined (c :: text) (prepend [c] ls) := by
  cases h with
  | empty => exact .last (List.cons_ne_nil c []) (List.forall_mem_singleton.2 hc)
  | last hne hline => exact .last (List.cons_ne_nil c _) (List.forall_mem_cons.2 ⟨hc, hline⟩)
  | broken hline hends hrest => exact .broken (List.forall_mem_cons.2 ⟨hc, hline⟩) hends hrest

/-- By induction along the cutting. -/
theorem lined_lines (text : List Char) : Lined text (lines text) := by
  fun_induction lines text with
  | case1 => exact .empty
  | case2 rest ih => exact .ends_append .pair ih
  | case3 c rest hpair hend ih =>
    refine .ends_append (.single hend ?_) ih
    rintro rfl hhead
    obtain ⟨more, rfl⟩ := List.head?_eq_some_iff.1 hhead
    exact hpair more rfl rfl
  | case4 c rest hpair hc hlines ih =>
    rw [hlines] at ih
    exact ih.cons (by simpa using hc)
  | case5 c rest hpair hc line more hlines ih =>
    rw [hlines] at ih
    exact ih.cons (by simpa using hc)

/-- **The lines that are cut are the lines of the text**, and there are no others. -/
theorem lined_iff : Lined text ls ↔ ls = lines text := by
  constructor
  · intro h
    induction h with
    | empty => rfl
    | last hne hline =>
      have hlines := lines_append hne hline []
      rw [List.append_nil] at hlines
      exact hlines.symm
    | @broken line ending rest ls hline hends hrest ih =>
      cases line with
      | nil => rw [List.nil_append, lines_ends_append hends, ih]
      | cons c more =>
        rw [lines_append (List.cons_ne_nil c more) hline, lines_ends_append hends, prepend, List.append_nil, ih]
  · rintro rfl
    exact lined_lines text

/-! ## Texts one after the other -/

theorem lines_broken (hline : ∀ c ∈ line, isLineEnd c = false) (hends : Ends ending rest) :
    lines (line ++ (ending ++ rest)) = line :: lines rest :=
  (lined_iff.1 (.broken hline hends (lined_lines rest))).symm

/-- What is added to the rest of a text can only join a line end that stands at the end of it. -/
theorem Ends.append (h : Ends ending rest) (more : List Char) :
    Ends ending (rest ++ more) ∨ ending = ['\r'] ∧ rest = [] := by
  cases h with
  | pair => exact .inl .pair
  | @single c _ hend halone =>
    by_cases hreturn : c = '\r' ∧ rest = []
    · exact .inr ⟨by rw [hreturn.1], hreturn.2⟩
    · refine .inl (.single hend fun hc => ?_)
      have hne : rest ≠ [] := fun hrest => hreturn ⟨hc, hrest⟩
      rw [List.head?_append_of_ne_nil rest hne]
      exact halone hc

/-- A line feed ends the last line of a text, whatever comes after it. -/
theorem Lined.append {more : List Char} {ls' : List (List Char)} (h : Lined text ls)
    (hlast : text.getLast? = some '\n') (hmore : Lined more ls') : Lined (text ++ more) (ls ++ ls') := by
  induction h with
  | empty => cases hlast
  | last hne hline =>
    have hfeed := hline '\n' (List.mem_of_getLast? hlast)
    cases hfeed
  | @broken line ending rest ls hline hends hrest ih =>
    rw [List.append_assoc, List.append_assoc, List.cons_append]
    by_cases hrest' : rest = []
    · subst hrest'
      obtain rfl : ls = [] := lined_iff.1 hrest
      have hends' : Ends ending more := by
        rcases hends.append more with hends' | ⟨rfl, -⟩
        · exact hends'
        · simp at hlast
      exact .broken hline hends' hmore
    · have hends' : Ends ending (rest ++ more) := (hends.append more).resolve_right fun h => hrest' h.2
      refine .broken hline hends' (ih ?_)
      rwa [List.getLast?_append_of_ne_nil _ (by simp [hrest']), List.getLast?_append_of_ne_nil _ hrest'] at hlast

/-- **Lines come apart at a line feed.** The text in front of it keeps its own lines, and so does the text behind it. -/
theorem lines_append_newline (a b : List Char) : lines (a ++ '\n' :: b) = lines (a ++ ['\n']) ++ lines b := by
  have happend := (lined_lines (a ++ ['\n'])).append (by simp) (lined_lines b)
  rw [List.append_assoc, List.singleton_append] at happend
  exact (lined_iff.1 happend).symm

/-- A line feed at the end of a text adds an empty line, or none: it may end the last line, or join its carriage
return. -/
theorem lines_newline (a : List Char) : lines (a ++ ['\n']) = lines a ∨ lines (a ++ ['\n']) = lines a ++ [[]] := by
  have hlined := lined_lines a
  generalize lines a = ls at hlined
  induction hlined with
  | empty => exact .inr rfl
  | @last line hne hline =>
    left
    rw [lines_append hne hline]
    simp [lines, isLineEnd, prepend]
  | @broken line ending rest ls hline hends hrest ih =>
    rw [List.append_assoc, List.append_assoc, List.cons_append]
    rcases hends.append ['\n'] with hends' | ⟨rfl, rfl⟩
    · rw [lines_broken hline hends']
      exact ih.imp (congrArg (line :: ·)) (congrArg (line :: ·))
    · obtain rfl : ls = [] := lined_iff.1 hrest
      have hpair : Ends ['\r', '\n'] [] := .pair
      exact .inl (lines_broken hline hpair)

/-- Lines that are not empty, with a line feed between any two of them. -/
theorem lined_intercalate (hls : ∀ line ∈ ls, line ≠ [] ∧ ∀ c ∈ line, isLineEnd c = false) :
    Lined (['\n'].intercalate ls) ls := by
  induction ls with
  | nil => exact .empty
  | cons line more ih =>
    obtain ⟨⟨hne, hline⟩, hmore⟩ := List.forall_mem_cons.1 hls
    cases more with
    | nil =>
      rw [List.intercalate_singleton]
      exact .last hne hline
    | cons next more =>
      rw [List.intercalate_cons_cons, List.append_assoc]
      exact .broken hline (.single rfl fun h => absurd h (by decide)) (ih hmore)

end Chip8.Text
