import Kasou.Error

/-!
# The rendered cause chain

`nsErrorChain` walks the tree of an error and its causes, and `display`
renders what it found.  Read line by line, the text is the list of all errors
of the tree in preorder.
-/

namespace Kasou

open FrameworkError

namespace NSError

/-! ## The nodes of a tree -/

/-- The strings that the error itself carries. -/
def strings : NSError → List Text
  | .mk domain _ description reason suggestion _ =>
      [domain, description] ++ reason.toList ++ suggestion.toList

/-- The error itself, rendered without its causes: its description, then the
reason and the suggestion where it has them, each in parentheses, and its
domain and code in brackets. -/
def line : NSError → Text
  | .mk domain code description reason suggestion _ =>
      description ++
        reason.elim [] (fun text =>
          " (reason: ".toList ++ text ++ ")".toList) ++
        suggestion.elim [] (fun text =>
          " (suggestion: ".toList ++ text ++ ")".toList) ++
        " [".toList ++ domain ++ ":".toList ++ (toString code).toList ++
        "]".toList

mutual

/-- The error and all errors below it, in preorder. -/
def preorder : NSError → List NSError
  | .mk domain code description reason suggestion underlying =>
      .mk domain code description reason suggestion underlying ::
        preorderAll underlying

/-- The errors of a list and all errors below them, in preorder. -/
def preorderAll : List NSError → List NSError
  | [] => []
  | e :: es => preorder e ++ preorderAll es

end

/-- The errors below an error, in preorder. -/
def causes : NSError → List NSError
  | .mk _ _ _ _ _ underlying => preorderAll underlying

theorem preorder_eq (e : NSError) : e.preorder = e :: e.causes := by
  obtain ⟨domain, code, description, reason, suggestion, underlying⟩ := e
  rw [preorder, causes]

/-- What a line of a cause begins with. -/
def causeLabel : String := "  caused by: "

/-- The line of a cause. -/
def causeLine (e : NSError) : Text := causeLabel.toList ++ e.line

/-- The line of the error at position `i` in the preorder: only the root has
no label. -/
def lineAt (i : Nat) (e : NSError) : Text :=
  if i = 0 then e.line else e.causeLine

theorem mapIdx_lineAt (e : NSError) :
    e.preorder.mapIdx lineAt = e.line :: e.causes.map causeLine := by
  have hcauses : e.causes.mapIdx (fun i => lineAt (i + 1)) =
      e.causes.map causeLine := by
    refine List.ext_getElem? fun i => ?_
    rw [List.getElem?_mapIdx, List.getElem?_map]
    rfl
  rw [preorder_eq, List.mapIdx_cons, hcauses]
  rfl

/-! ## Lines without line feeds -/

theorem newline_not_mem_toString (n : Nat) : '\n' ∉ n.repr.toList := by
  intro h
  rw [Nat.toList_repr] at h
  have hdigit := Nat.isDigit_of_mem_toDigits (by decide) (by decide) h
  cases hdigit

theorem newline_not_mem_code (code : Int) :
    '\n' ∉ (toString code).toList := by
  rw [Int.toString_eq_repr, Int.repr_eq_if]
  by_cases hcode : 0 ≤ code
  · rw [if_pos hcode]
    exact newline_not_mem_toString _
  · rw [if_neg hcode, String.toList_append, List.mem_append, not_or]
    exact ⟨by decide, newline_not_mem_toString _⟩

theorem newline_not_mem_parenthesised (label : String)
    (hlabel : '\n' ∉ label.toList) {part : Option Text}
    (hpart : ∀ t ∈ part.toList, '\n' ∉ t) :
    '\n' ∉ part.elim [] (fun text => label.toList ++ text ++ ")".toList) := by
  cases part with
  | none => exact List.not_mem_nil
  | some t =>
      have ht : '\n' ∉ t := hpart t (List.mem_singleton_self t)
      rw [Option.elim_some, List.mem_append, List.mem_append, not_or, not_or]
      exact ⟨⟨hlabel, ht⟩, by decide⟩

/-- An error whose strings have no line feed is rendered on one line. -/
theorem newline_not_mem_line {e : NSError} (h : ∀ t ∈ e.strings, '\n' ∉ t) :
    '\n' ∉ e.line := by
  obtain ⟨domain, code, description, reason, suggestion, underlying⟩ := e
  simp only [strings, List.forall_mem_append, List.forall_mem_cons] at h
  obtain ⟨⟨⟨hdomain, hdescription, -⟩, hreason⟩, hsuggestion⟩ := h
  have hreason := newline_not_mem_parenthesised " (reason: " (by decide) hreason
  have hsuggestion :=
    newline_not_mem_parenthesised " (suggestion: " (by decide) hsuggestion
  have hcode := newline_not_mem_code code
  simp only [line, List.mem_append, not_or]
  refine ⟨⟨⟨⟨⟨⟨⟨hdescription, hreason⟩, hsuggestion⟩, ?_⟩, hdomain⟩, ?_⟩,
    hcode⟩, ?_⟩
  · decide
  · decide
  · decide

theorem newline_not_mem_causeLine {e : NSError}
    (h : ∀ t ∈ e.strings, '\n' ∉ t) : '\n' ∉ e.causeLine := by
  rw [causeLine, List.mem_append, not_or]
  exact ⟨by decide, newline_not_mem_line h⟩

/-! ## The rendered text -/

theorem optionalPart_eq_elim (label : String) (part : Option Text) :
    optionalPart label part =
      part.elim [] fun text => label.toList ++ text ++ ")".toList := by
  cases part with
  | none => rfl
  | some text => rfl

mutual

/-- The rendered text of an error is its line and then the line of each
error below it. -/
theorem display_fromNsError (e : NSError) :
    (fromNsError e).display =
      e.line ++ e.causes.flatMap fun c => ['\n'] ++ c.causeLine := by
  cases e with
  | mk domain code description reason suggestion underlying =>
      rw [fromNsError, display, displayUnderlying_fromNsErrors underlying,
        optionalPart_eq_elim, optionalPart_eq_elim]
      rfl

theorem displayUnderlying_fromNsErrors (es : List NSError) :
    displayUnderlying (fromNsErrors es) =
      (preorderAll es).flatMap fun c => ['\n'] ++ c.causeLine := by
  cases es with
  | nil =>
      rw [fromNsErrors, displayUnderlying_nil, preorderAll, List.flatMap_nil]
  | cons e es =>
      rw [fromNsErrors, displayUnderlying_cons, display_fromNsError e,
        displayUnderlying_fromNsErrors es, preorderAll, preorder_eq,
        List.flatMap_append, List.flatMap_cons, causeLine,
        ← List.append_assoc, ← List.append_assoc]
      rfl

end

/-- The rendered text is put together from the lines of the preorder. -/
theorem display_eq_intercalate (e : NSError) :
    (nsErrorChain e).display =
      List.intercalate ['\n'] (e.preorder.mapIdx lineAt) := by
  rw [nsErrorChain, display_fromNsError, mapIdx_lineAt,
    Text.intercalate_cons_eq, List.flatMap_map]

theorem newline_not_mem_of_mem_lines {e : NSError}
    (h : ∀ node ∈ e.preorder, ∀ t ∈ node.strings, '\n' ∉ t) :
    ∀ l ∈ e.preorder.mapIdx lineAt, '\n' ∉ l := by
  rw [mapIdx_lineAt, List.forall_mem_cons, List.forall_mem_map]
  rw [preorder_eq, List.forall_mem_cons] at h
  exact ⟨newline_not_mem_line h.1,
    fun c hc => newline_not_mem_causeLine (h.2 c hc)⟩

/-- **The rendered chain lists every error once**: its lines are those of the
errors of the tree, in preorder. -/
theorem nsErrorChain_lines (e : NSError)
    (h : ∀ node ∈ e.preorder, ∀ t ∈ node.strings, '\n' ∉ t) :
    (nsErrorChain e).display.splitOn '\n' = e.preorder.mapIdx lineAt ∧
      ((nsErrorChain e).display.splitOn '\n').length =
        e.preorder.length := by
  have hne : e.preorder.mapIdx lineAt ≠ [] := by
    rw [mapIdx_lineAt]
    exact List.cons_ne_nil _ _
  have hlines := (Text.eq_intercalate_iff hne
    (newline_not_mem_of_mem_lines h)).mp (display_eq_intercalate e)
  refine ⟨hlines, ?_⟩
  rw [hlines, List.length_mapIdx]

/-- A failed start with two causes, the first with a cause of its own. -/
def startError : NSError :=
  .mk "VZ".toList 2 "start".toList (some "disk".toList) (some "retry".toList)
    [.mk "Cocoa".toList 260 "open".toList none none
      [.mk "POSIX".toList (-2) "ENOENT".toList none (some "create".toList) []],
     .mk "OS".toList (-43) "fnfErr".toList (some "gone".toList) none []]

theorem startError_lines :
    (nsErrorChain startError).display.splitOn '\n' =
        ["start (reason: disk) (suggestion: retry) [VZ:2]".toList,
          "  caused by: open [Cocoa:260]".toList,
          "  caused by: ENOENT (suggestion: create) [POSIX:-2]".toList,
          "  caused by: fnfErr (reason: gone) [OS:-43]".toList] ∧
      ((nsErrorChain startError).display.splitOn '\n').length = 4 :=
  nsErrorChain_lines startError (by decide)

end NSError

end Kasou
