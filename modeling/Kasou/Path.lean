import Kasou.Library.Text
import Mathlib.Data.List.Infix

/-!
# Paths

A path is the list of its components, as `std::path::Path::components` yields
them, and two paths are equal when their components are.  It stands for the
spelling that has one separator between components and none at its end.
Component names are operating-system strings, which need not be valid UTF-8:
`toStr` fails on those that are not, and `display` shows a replacement
character.
-/

namespace Kasou

/-- A unit of an operating-system string: a character, or one invalid sequence
of bytes, as a lossy conversion to UTF-8 delimits them. -/
inductive OsChar where
  | char (c : Char)
  | invalid (bytes : List UInt8)
  deriving DecidableEq, Repr

/-- An operating-system string. -/
abbrev OsStr := List OsChar

namespace OsStr

/-- A text as an operating-system string. -/
def ofText (t : Text) : OsStr := t.map .char

/-- The string as a text, if it is valid UTF-8. -/
def toStr (s : OsStr) : Option Text :=
  s.mapM fun
    | .char c => some c
    | .invalid _ => none

/-- The string for display; each invalid sequence shows as one U+FFFD. -/
def display (s : OsStr) : Text :=
  s.map fun
    | .char c => c
    | .invalid _ => '\uFFFD'

/-- Split at the last dot, if there is one. -/
def rsplitAtDot (name : OsStr) : Option (OsStr × OsStr) :=
  match name.reverse.dropWhile (· != .char '.') with
  | [] => none
  | _ :: before =>
      some (before.reverse,
        (name.reverse.takeWhile (· != .char '.')).reverse)

/-- `Path::file_stem` of a file name: what stands before its last dot.  A
name without a dot, or whose only dot comes first, is its own stem. -/
def fileStem (name : OsStr) : OsStr :=
  match rsplitAtDot name with
  | none => name
  | some (before, _) => if before = [] then name else before

theorem rsplitAtDot_spec {name before after : OsStr}
    (h : rsplitAtDot name = some (before, after)) :
    name = before ++ .char '.' :: after ∧ .char '.' ∉ after := by
  rw [rsplitAtDot] at h
  split at h
  · simp at h
  next c rest hdrop =>
    simp only [Option.some.injEq, Prod.mk.injEq] at h
    obtain ⟨rfl, rfl⟩ := h
    have hc : c = .char '.' := by
      have hhead := List.head?_dropWhile_not (· != .char '.') name.reverse
      rw [hdrop] at hhead
      simpa using hhead
    constructor
    · have hsplit := List.takeWhile_append_dropWhile
        (p := (· != OsChar.char '.')) (l := name.reverse)
      rw [hdrop, hc] at hsplit
      have hrev := congrArg List.reverse hsplit
      simpa using hrev.symm
    · intro hmem
      have hne := List.mem_takeWhile_imp (List.mem_reverse.mp hmem)
      simp at hne

/-- The split before and after the last dot. -/
theorem rsplitAtDot_append {before after : OsStr}
    (hafter : .char '.' ∉ after) :
    rsplitAtDot (before ++ .char '.' :: after) = some (before, after) := by
  have hname : (before ++ .char '.' :: after).reverse =
      after.reverse ++ .char '.' :: before.reverse := by simp
  have hall : ∀ c ∈ after.reverse, (c != .char '.') = true := by
    intro c hc
    rw [bne_iff_ne]
    rintro rfl
    exact hafter (List.mem_reverse.mp hc)
  rw [rsplitAtDot, hname, List.dropWhile_append_of_pos hall,
    List.takeWhile_append_of_pos hall, List.dropWhile_cons_of_neg (by simp),
    List.takeWhile_cons_of_neg (by simp)]
  simp

/-- Appending an extension that has a dot of its own to a stem never gives
back the name the stem was taken from. -/
theorem fileStem_append_ne (name : OsStr) {ext : OsStr}
    (hdot : .char '.' ∈ ext) : fileStem name ++ .char '.' :: ext ≠ name := by
  intro heq
  rw [fileStem] at heq
  split at heq
  · have hlen := congrArg List.length heq
    simp at hlen
  next before after hsplit =>
    obtain ⟨hname, hafter⟩ := rsplitAtDot_spec hsplit
    split at heq
    · have hlen := congrArg List.length heq
      simp at hlen
    · rw [hname] at heq
      have hext := List.append_cancel_left heq
      rw [List.cons.injEq] at hext
      exact hafter (hext.2 ▸ hdot)

end OsStr

/-- One component of a path. -/
inductive Component where
  | rootDir
  | curDir
  | parentDir
  | normal (name : OsStr)
  deriving DecidableEq, Repr

/-- A path, as its components from the outermost one in. -/
abbrev Path := List Component

namespace Path

/-- The final component, if it is a name. -/
def fileName (p : Path) : Option OsStr :=
  match p.getLast? with
  | some (.normal name) => some name
  | _ => none

/-- The path without its final component; none for a root or an empty path. -/
def parent (p : Path) : Option Path :=
  match p.getLast? with
  | none => none
  | some .rootDir => none
  | some _ => some p.dropLast

/-- The last component when the extension of a file name is replaced, or one
is added.  The new extension is set on the name up to the old one. -/
def replaceExtension (name ext : OsStr) : Component :=
  match OsStr.rsplitAtDot name with
  | some ([.char '.'], _ :: _) =>
      -- up to the old extension the name reads `..`, which takes none
      .parentDir
  | _ => .normal (OsStr.fileStem name ++ .char '.' :: ext)

/-- `Path::with_extension` for an extension that is not empty.  A path that
does not end in a file name is left as it is. -/
def withExtension (p : Path) (ext : OsStr) : Path :=
  match p.fileName with
  | none => p
  | some name => p.dropLast ++ [replaceExtension name ext]

/-- The text form of one component. -/
def componentStr : Component → OsStr
  | .rootDir => []
  | .curDir => OsStr.ofText ".".toList
  | .parentDir => OsStr.ofText "..".toList
  | .normal name => name

/-- The operating-system string of the path. -/
def asOsStr : Path → OsStr
  | [] => []
  | [.rootDir] => OsStr.ofText "/".toList
  | [c] => componentStr c
  | c :: cs => componentStr c ++ .char '/' :: asOsStr cs

/-- The path as a text, if it is valid UTF-8. -/
def toStr (p : Path) : Option Text := OsStr.toStr (asOsStr p)

/-- The path for display. -/
def display (p : Path) : Text := OsStr.display (asOsStr p)

theorem fileName_eq_some_iff {p : Path} {name : OsStr} :
    fileName p = some name ↔ ∃ dir, p = dir ++ [.normal name] := by
  rw [fileName]
  constructor
  · intro h
    split at h
    next n hlast =>
      rw [Option.some.injEq] at h
      subst h
      exact List.getLast?_eq_some_iff.mp hlast
    · simp at h
  · rintro ⟨dir, rfl⟩
    simp

@[simp] theorem fileName_concat (dir : Path) (name : OsStr) :
    fileName (dir ++ [.normal name]) = some name :=
  fileName_eq_some_iff.mpr ⟨dir, rfl⟩

@[simp] theorem parent_concat (dir : Path) (name : OsStr) :
    parent (dir ++ [.normal name]) = some dir := by
  simp [parent]

/-- Two dots and a text without any: the names that lose their extension and
do not get another. -/
theorem replaceExtension_eq_parentDir_iff {name ext : OsStr} :
    replaceExtension name ext = .parentDir ↔
      ∃ after, after ≠ [] ∧ .char '.' ∉ after ∧
        name = .char '.' :: .char '.' :: after := by
  rw [replaceExtension]
  constructor
  · intro h
    split at h
    next c after hsplit =>
      obtain ⟨hname, hafter⟩ := OsStr.rsplitAtDot_spec hsplit
      exact ⟨c :: after, List.cons_ne_nil c after, hafter, hname⟩
    · cases h
  · rintro ⟨after, hne, hafter, rfl⟩
    obtain ⟨c, after, rfl⟩ := List.exists_cons_of_ne_nil hne
    have hsplit : OsStr.rsplitAtDot (.char '.' :: .char '.' :: c :: after) =
        some ([.char '.'], c :: after) :=
      @OsStr.rsplitAtDot_append [.char '.'] _ hafter
    rw [hsplit]
    rfl

theorem replaceExtension_of_ne {name ext : OsStr}
    (h : replaceExtension name ext ≠ .parentDir) :
    replaceExtension name ext =
      .normal (OsStr.fileStem name ++ .char '.' :: ext) := by
  rw [replaceExtension] at h ⊢
  split at h
  · exact absurd rfl h
  · rfl

/-- An extension that contains a dot makes another component. -/
theorem replaceExtension_ne {name ext : OsStr} (hdot : .char '.' ∈ ext) :
    replaceExtension name ext ≠ .normal name := by
  intro heq
  rw [replaceExtension_of_ne (by rw [heq]; nofun), Component.normal.injEq]
    at heq
  exact OsStr.fileStem_append_ne name hdot heq

@[simp] theorem withExtension_concat (dir : Path) (name ext : OsStr) :
    withExtension (dir ++ [.normal name]) ext =
      dir ++ [replaceExtension name ext] := by
  simp [withExtension]

example :
    ["..a", "...", ".a", "a.bin"].map (fun name =>
        replaceExtension (OsStr.ofText name.toList)
          (OsStr.ofText "tmp".toList)) =
      [.parentDir] ++ ["...tmp", ".a.tmp", "a.tmp"].map fun name =>
        .normal (OsStr.ofText name.toList) := by
  decide

/-- Replacing the extension by one that contains a dot gives another path. -/
theorem withExtension_ne {p : Path} (hfile : p.fileName ≠ none) {ext : OsStr}
    (hdot : .char '.' ∈ ext) : p.withExtension ext ≠ p := by
  obtain ⟨name, hname⟩ := Option.ne_none_iff_exists'.mp hfile
  obtain ⟨dir, rfl⟩ := fileName_eq_some_iff.mp hname
  rw [withExtension_concat]
  intro heq
  have hlast := List.append_cancel_left heq
  rw [List.cons.injEq] at hlast
  exact replaceExtension_ne hdot hlast.1

/-- The parent has fewer components. -/
theorem length_parent {p parent : Path} (h : p.parent = some parent) :
    parent.length < p.length := by
  rw [Path.parent] at h
  split at h
  · cases h
  · cases h
  next c _ hlast =>
    obtain ⟨front, rfl⟩ := List.getLast?_eq_some_iff.mp hlast
    obtain rfl := Option.some.inj h
    simp

theorem length_withExtension (p : Path) (ext : OsStr) :
    (p.withExtension ext).length = p.length := by
  cases hname : p.fileName with
  | none => simp [withExtension, hname]
  | some name =>
      obtain ⟨dir, rfl⟩ := fileName_eq_some_iff.mp hname
      rw [withExtension_concat]
      simp

/-- No component has the empty name. -/
def Named (p : Path) : Prop := Component.normal [] ∉ p

instance (p : Path) : Decidable p.Named :=
  inferInstanceAs (Decidable (_ ∉ _))

/-- Only the empty path has the empty string. -/
theorem eq_nil_of_asOsStr_eq_nil {p : Path} (hnamed : p.Named)
    (h : p.asOsStr = []) : p = [] := by
  match p, hnamed, h with
  | [], _, _ => rfl
  | [.rootDir], _, h => cases h
  | [.curDir], _, h => cases h
  | [.parentDir], _, h => cases h
  | [.normal name], hnamed, h =>
      have hname : name = [] := h
      exact absurd (by rw [hname]; exact List.mem_singleton_self _) hnamed
  | c :: c' :: cs, _, h =>
      have hslash : OsChar.char '/' ∈ asOsStr (c :: c' :: cs) := by
        rw [asOsStr]
        · simp
        · nofun
        · nofun
      rw [h] at hslash
      cases hslash

/-- The parent is the front of the path. -/
theorem parent_prefix {p parent : Path} (h : p.parent = some parent) :
    parent <+: p := by
  rw [Path.parent] at h
  split at h
  · cases h
  · cases h
  · obtain rfl := Option.some.inj h
    exact List.dropLast_prefix p

theorem self_mem_tail_inits {p : Path} (hne : p ≠ []) : p ∈ p.inits.tail := by
  have hmem : p ∈ p.inits := (List.mem_inits _ _).mpr (List.prefix_refl p)
  obtain ⟨c, cs, rfl⟩ := List.exists_cons_of_ne_nil hne
  rw [List.inits_cons] at hmem ⊢
  rcases List.mem_cons.mp hmem with hnil | htail
  · cases hnil
  · exact htail

end Path

end Kasou
