import Mathlib.Data.List.DropRight

/-!
# Text and the line-level string operations

A string is the list of its characters.  This module has the operations of a
standard string library that line-based readers use: white space, trimming,
prefix stripping and splitting into lines, with the rules by which a reader
recovers the contents of a line from the text around it.
-/

/-- A string, as the list of its characters. -/
abbrev Text := List Char

namespace Text

/-! ## White space and trimming -/

/-- The Unicode `White_Space` property. -/
def isWhitespace (c : Char) : Bool :=
  let n := c.toNat
  (0x09 ≤ n && n ≤ 0x0D) || n == 0x20 || n == 0x85 || n == 0xA0 ||
    n == 0x1680 || (0x2000 ≤ n && n ≤ 0x200A) || n == 0x2028 ||
    n == 0x2029 || n == 0x202F || n == 0x205F || n == 0x3000

/-- Every character of the text is white space. -/
def Blank (t : Text) : Prop := ∀ c ∈ t, isWhitespace c = true

instance (t : Text) : Decidable (Blank t) :=
  decidable_of_iff (t.all isWhitespace = true) List.all_eq_true

/-- Drop the white space at both ends. -/
def trim (t : Text) : Text :=
  (t.dropWhile isWhitespace).rdropWhile isWhitespace

theorem dropWhile_blank_append {left : Text} (hleft : Blank left) (t : Text) :
    (left ++ t).dropWhile isWhitespace = t.dropWhile isWhitespace := by
  induction left with
  | nil => rfl
  | cons c left ih =>
      have hc : isWhitespace c = true := hleft c (by simp)
      rw [List.cons_append, List.dropWhile_cons_of_pos hc]
      exact ih fun d hd => hleft d (by simp [hd])

theorem rdropWhile_append_blank (t : Text) {right : Text}
    (hright : Blank right) :
    (t ++ right).rdropWhile isWhitespace = t.rdropWhile isWhitespace := by
  rw [List.rdropWhile, List.rdropWhile, List.reverse_append,
    dropWhile_blank_append (by simpa [Blank] using hright)]

/-- A text that neither begins nor ends in white space is what trimming
leaves of it. -/
theorem trim_eq_self {t : Text}
    (hfirst : ∀ c ∈ t.head?, isWhitespace c = false)
    (hlast : ∀ c ∈ t.getLast?, isWhitespace c = false) : trim t = t := by
  cases t with
  | nil => rfl
  | cons c t =>
      rw [trim, List.dropWhile_cons_of_neg (by simp [hfirst c rfl]),
        List.rdropWhile_eq_self_iff]
      intro hne
      simp [hlast _ (List.getLast?_eq_some_getLast hne)]

/-- Blank surroundings do not change what is left of a line. -/
theorem trim_surrounded {left right : Text} (hleft : Blank left)
    (hright : Blank right) (t : Text) :
    trim (left ++ t ++ right) = trim t := by
  rw [trim, List.append_assoc, dropWhile_blank_append hleft, trim]
  by_cases ht : Blank t
  · have hall : Blank (t ++ right) := by
      intro c hc
      rcases List.mem_append.mp hc with h | h
      · exact ht c h
      · exact hright c h
    rw [List.dropWhile_eq_nil_iff.mpr hall, List.dropWhile_eq_nil_iff.mpr ht]
  · have hne : t.dropWhile isWhitespace ≠ [] := by
      rwa [ne_eq, List.dropWhile_eq_nil_iff]
    have happ : (t ++ right).dropWhile isWhitespace =
        t.dropWhile isWhitespace ++ right := by
      rw [List.dropWhile_append, if_neg (by simpa using hne)]
    rw [happ, rdropWhile_append_blank _ hright]

/-- Trimming leaves the first character of a text that is no white space. -/
theorem head?_trim (t : Text) :
    (trim t).head? = (t.dropWhile isWhitespace).head? := by
  rw [trim]
  cases hdrop : t.dropWhile isWhitespace with
  | nil => rfl
  | cons c u =>
      have hc : isWhitespace c = false := by
        have hhead := List.head?_dropWhile_not isWhitespace t
        rw [hdrop] at hhead
        exact Bool.eq_false_iff.mpr (by simpa using hhead)
      have hfirst := List.rdropWhile_prefix isWhitespace (c :: u)
      have hne : (c :: u).rdropWhile isWhitespace ≠ [] := by
        intro hnil
        have hall := List.rdropWhile_eq_nil_iff.mp hnil c (by simp)
        rw [hc] at hall
        cases hall
      obtain ⟨rest, hrest⟩ := hfirst
      cases hcut : (c :: u).rdropWhile isWhitespace with
      | nil => exact (hne hcut).elim
      | cons d v =>
          rw [hcut, List.cons_append] at hrest
          rw [List.head?_cons, List.head?_cons, (List.cons.inj hrest).1]

/-- A text goes on with the first character that is no white space. -/
theorem head?_trim_append {t : Text} {c : Char}
    (h : (trim t).head? = some c) (u : Text) :
    (trim (t ++ u)).head? = some c := by
  rw [head?_trim] at h ⊢
  rw [List.dropWhile_append]
  cases hdrop : t.dropWhile isWhitespace with
  | nil =>
      rw [hdrop] at h
      cases h
  | cons d v =>
      rw [hdrop] at h
      exact h

theorem mem_of_mem_trim {t : Text} {c : Char} (hc : c ∈ trim t) : c ∈ t :=
  (List.dropWhile_suffix _).subset ((List.rdropWhile_prefix _ _).subset hc)

/-- What is left of a line does not end in white space. -/
theorem isWhitespace_getLast?_trim (t : Text) :
    ∀ c ∈ (trim t).getLast?, isWhitespace c = false := by
  intro c hc
  obtain ⟨hne, rfl⟩ := List.mem_getLast?_eq_getLast hc
  exact Bool.eq_false_iff.mpr (List.rdropWhile_last_not _ _ hne)

/-! ## Prefixes -/

/-- What follows `pre` in `t`, when `t` starts with `pre`. -/
abbrev stripPrefix (pre t : Text) : Option Text := t.dropPrefix? pre

theorem stripPrefix_eq_some_iff {pre t rest : Text} :
    stripPrefix pre t = some rest ↔ t = pre ++ rest := by
  simp [stripPrefix, List.dropPrefix?_eq_some_iff]

@[simp] theorem stripPrefix_append (pre rest : Text) :
    stripPrefix pre (pre ++ rest) = some rest :=
  stripPrefix_eq_some_iff.mpr rfl

theorem stripPrefix_eq_none_iff {pre t : Text} :
    stripPrefix pre t = none ↔ ¬ pre <+: t := by
  rw [Option.eq_none_iff_forall_ne_some]
  constructor
  · rintro h ⟨rest, hrest⟩
    exact h rest (stripPrefix_eq_some_iff.mpr hrest.symm)
  · intro h rest hrest
    exact h ⟨rest, (stripPrefix_eq_some_iff.mp hrest).symm⟩

/-! ## Separated parts -/

/-- A text has one way to be put together from parts without the separator. -/
theorem eq_intercalate_iff {sep : Char} {s : Text} {parts : List Text}
    (hne : parts ≠ []) (hparts : ∀ part ∈ parts, sep ∉ part) :
    s = List.intercalate [sep] parts ↔ s.splitOn sep = parts := by
  constructor
  · rintro rfl
    exact List.splitOn_intercalate sep hparts hne
  · rintro rfl
    exact (List.intercalate_splitOn sep).symm

/-- All parts but the first come behind a separator. -/
theorem intercalate_cons_eq (sep part : Text) (parts : List Text) :
    List.intercalate sep (part :: parts) =
      part ++ parts.flatMap fun next => sep ++ next := by
  induction parts generalizing part with
  | nil => rw [List.intercalate_singleton, List.flatMap_nil, List.append_nil]
  | cons next parts ih =>
      rw [List.intercalate_cons_cons, ih, List.flatMap_cons,
        List.append_assoc, List.append_assoc]

/-- The length of a text put together from parts of one length. -/
theorem length_intercalate_succ (sep : Char) {n : Nat} {parts : List Text}
    (hne : parts ≠ []) (hparts : ∀ part ∈ parts, part.length = n) :
    (List.intercalate [sep] parts).length + 1 = parts.length * (n + 1) := by
  induction parts with
  | nil => exact absurd rfl hne
  | cons part parts ih =>
      obtain ⟨hpart, hrest⟩ := List.forall_mem_cons.mp hparts
      by_cases hnil : parts = []
      · rw [hnil, List.intercalate_singleton, hpart, List.length_singleton,
          Nat.one_mul]
      · have hlength := ih hnil hrest
        rw [List.intercalate_cons_of_ne_nil hnil, List.length_append,
          List.length_append, hpart, List.length_singleton, List.length_cons,
          Nat.succ_mul, ← hlength]
        omega

/-! ## Lines -/

/-- A line without the carriage return of a CRLF line end. -/
def stripCarriageReturn (line : Text) : Text :=
  if line.getLast? = some '\r' then line.dropLast else line

/-- The lines of a text.  A line ends with LF or CRLF; the last one may be
unterminated, and then a carriage return at its end is part of it. -/
def lines (t : Text) : List Text :=
  let pieces := t.splitOn '\n'
  pieces.dropLast.map stripCarriageReturn ++
    (pieces.getLast?.toList.filter fun last => !last.isEmpty)

/-- The first line of a text is what stands before its first line feed. -/
theorem lines_append_cons {line : Text} (hline : '\n' ∉ line) (rest : Text) :
    lines (line ++ '\n' :: rest) = stripCarriageReturn line :: lines rest := by
  have hsplit : (line ++ '\n' :: rest).splitOn '\n' =
      line :: rest.splitOn '\n' := by
    rw [List.splitOn_append_cons_self, List.splitOn_eq_singleton hline]
    rfl
  have hne : rest.splitOn '\n' ≠ [] := List.splitOn_ne_nil _ _
  rw [lines, lines, hsplit, List.dropLast_cons_of_ne_nil hne,
    List.getLast?_cons_of_ne_nil hne]
  rfl

/-- The text is empty or ends with a line feed: its last line is complete. -/
def LineComplete (t : Text) : Prop := ∀ c ∈ t.getLast?, c = '\n'

instance (t : Text) : Decidable (LineComplete t) :=
  Option.decidableForallMem _

theorem LineComplete.nil : LineComplete [] := nofun

theorem LineComplete.tail {c : Char} {t : Text}
    (h : LineComplete (c :: t)) : LineComplete t := by
  cases t with
  | nil => exact LineComplete.nil
  | cons d t =>
      intro e he
      exact h e (by rwa [List.getLast?_cons_cons])

theorem LineComplete.append {s t : Text} (hs : LineComplete s)
    (ht : LineComplete t) : LineComplete (s ++ t) := by
  intro c hc
  rw [List.getLast?_append] at hc
  cases hlast : t.getLast? with
  | none =>
      rw [hlast] at hc
      exact hs c hc
  | some d =>
      rw [hlast] at hc
      obtain rfl : d = c := Option.some.inj hc
      exact ht d hlast

/-- A text of complete lines is empty, or a line and a text of complete
lines. -/
theorem LineComplete.cases_line {t : Text} (ht : LineComplete t) :
    t = [] ∨ ∃ line rest, '\n' ∉ line ∧ LineComplete rest ∧
      t = line ++ '\n' :: rest := by
  induction t with
  | nil => exact Or.inl rfl
  | cons c t ih =>
      refine Or.inr ?_
      by_cases hc : c = '\n'
      · subst hc
        exact ⟨[], t, List.not_mem_nil, ht.tail, rfl⟩
      · rcases ih ht.tail with rfl | ⟨line, rest, hline, hrest, rfl⟩
        · exact absurd (ht c rfl) hc
        · exact ⟨c :: line, rest, List.not_mem_cons_of_ne_of_not_mem
            (Ne.symm hc) hline, hrest, rfl⟩

/-- The lines of two texts one after the other, when the first has no
unfinished line. -/
theorem lines_append {s : Text} (hs : LineComplete s) (t : Text) :
    lines (s ++ t) = lines s ++ lines t := by
  induction hlen : s.length using Nat.strong_induction_on generalizing s with
  | h n ih =>
      rcases hs.cases_line with rfl | ⟨line, rest, hline, hrest, rfl⟩
      · rfl
      · have hlt : rest.length < n := by
          rw [← hlen, List.length_append, List.length_cons]
          omega
        rw [List.append_assoc, List.cons_append, lines_append_cons hline,
          lines_append_cons hline, ih _ hlt hrest rfl, List.cons_append]

/-- An unfinished line is the only line of its text. -/
theorem lines_of_not_mem {line : Text} (hline : '\n' ∉ line)
    (hne : line ≠ []) : lines line = [line] := by
  have hempty : line.isEmpty = false := List.isEmpty_eq_false_iff.mpr hne
  rw [lines, List.splitOn_eq_singleton hline]
  simp [hempty]

/-- A text is a text of complete lines with an unfinished line behind it. -/
theorem exists_lineComplete_append (t : Text) :
    ∃ a line, LineComplete a ∧ '\n' ∉ line ∧ t = a ++ line := by
  induction t with
  | nil => exact ⟨[], [], LineComplete.nil, List.not_mem_nil, rfl⟩
  | cons c t ih =>
      obtain ⟨a, line, ha, hline, rfl⟩ := ih
      by_cases hc : c = '\n'
      · subst hc
        refine ⟨'\n' :: a, line, ?_, hline, rfl⟩
        have hfeed : LineComplete ['\n'] := by decide
        exact hfeed.append ha
      · cases a with
        | nil =>
            exact ⟨[], c :: line, LineComplete.nil,
              List.not_mem_cons_of_ne_of_not_mem (Ne.symm hc) hline, rfl⟩
        | cons d a =>
            refine ⟨c :: d :: a, line, ?_, hline, rfl⟩
            intro e he
            rw [List.getLast?_cons_cons] at he
            exact ha e he

theorem mem_of_mem_stripCarriageReturn {line : Text} {c : Char}
    (hc : c ∈ stripCarriageReturn line) : c ∈ line := by
  rw [stripCarriageReturn] at hc
  split at hc
  · exact (List.dropLast_sublist line).subset hc
  · exact hc

/-- No line contains a line feed. -/
theorem newline_not_mem_of_mem_lines {t line : Text} (hline : line ∈ lines t) :
    '\n' ∉ line := by
  obtain ⟨a, last, ha, hlast, rfl⟩ := exists_lineComplete_append t
  have hcomplete : ∀ n (a : Text), a.length = n → LineComplete a →
      ∀ line ∈ lines a, '\n' ∉ line := by
    intro n
    induction n using Nat.strong_induction_on with
    | h n ih =>
        intro a hlen ha
        rcases ha.cases_line with rfl | ⟨first, rest, hfirst, hrest, rfl⟩
        · intro line hline
          cases hline
        · have hlt : rest.length < n := by
            rw [← hlen, List.length_append, List.length_cons]
            omega
          rw [lines_append_cons hfirst]
          exact List.forall_mem_cons.mpr
            ⟨mt mem_of_mem_stripCarriageReturn hfirst,
              ih rest.length hlt rest rfl hrest⟩
  rw [lines_append ha] at hline
  rcases List.mem_append.mp hline with hmem | hmem
  · exact hcomplete _ a rfl ha line hmem
  · by_cases hnil : last = []
    · rw [hnil] at hmem
      cases hmem
    · rw [lines_of_not_mem hlast hnil, List.mem_singleton] at hmem
      exact hmem ▸ hlast

/-- A carriage return at the end of a line is white space, so a reader that
trims does not see whether the line ended with LF or CRLF. -/
theorem trim_stripCarriageReturn (line : Text) :
    trim (stripCarriageReturn line) = trim line := by
  rw [stripCarriageReturn]
  split
  next hlast =>
    obtain ⟨front, rfl⟩ : ∃ front, line = front ++ ['\r'] :=
      List.getLast?_eq_some_iff.mp hlast
    have hblank : Blank ['\r'] := by
      intro c hc
      rw [List.mem_singleton] at hc
      subst c
      rfl
    rw [List.dropLast_concat]
    have hnil : Blank [] := nofun
    exact (trim_surrounded hnil hblank front).symm
  next => rfl

end Text
