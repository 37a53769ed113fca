import Mathlib.Data.List.Sublists
import Mathlib.Logic.Function.Basic

/-!
# A file system with crashes

The file system keeps its directory entries and its file contents apart.  A
change of the directory entries (`mkdir`, the creation of a file, `rename`) is
visible at once, but a crash may keep it or lose it, whatever becomes of the
other changes.  The contents of a file survive a crash when the file has been
synced since they were last changed; otherwise the crash leaves arbitrary
contents.  No operation here syncs a directory.

`Fs.Outcome` is the set of the directory states that a crash may leave.  What
is to hold after a crash is proved of all outcomes.
-/

/-- The types whose values name directories and files. -/
class DirTree (κ : Type*) where
  /-- The directory that holds the name; none for a name that always stands
  for a directory. -/
  dir : κ → Option κ

namespace CrashFs

/-- What a name stands for: a directory, or a file by its inode. -/
inductive Entry where
  | dir
  | file (ino : Nat)
  deriving DecidableEq, Repr

/-! ## Directory entries -/

/-- The entries of all directories. -/
structure Namespace (κ : Type*) where
  entries : κ → Option Entry

variable {κ : Type*} [DirTree κ] [DecidableEq κ]

namespace Namespace

/-- What a name stands for, if it stands for anything. -/
def lookup (ns : Namespace κ) (k : κ) : Option Entry :=
  match DirTree.dir k with
  | none => some .dir
  | some _ => ns.entries k

/-- The directory that is to hold the name exists. -/
def holds (ns : Namespace κ) (k : κ) : Bool :=
  match DirTree.dir k with
  | none => false
  | some d => ns.lookup d == some .dir

/-- Put an entry under a name. -/
def bind (ns : Namespace κ) (k : κ) (e : Entry) : Namespace κ :=
  ⟨Function.update ns.entries k (some e)⟩

/-- Remove the entry under a name. -/
def unbind (ns : Namespace κ) (k : κ) : Namespace κ :=
  ⟨Function.update ns.entries k none⟩

/-- Every inode that has an entry is below `n`. -/
def Below (n : Nat) (ns : Namespace κ) : Prop :=
  ∀ k ino, ns.entries k = some (.file ino) → ino < n

omit [DecidableEq κ] in
theorem lookup_lt {n : Nat} {ns : Namespace κ} (hns : ns.Below n) {k : κ}
    {ino : Nat} (h : ns.lookup k = some (.file ino)) : ino < n := by
  rw [lookup] at h
  split at h
  · cases h
  · exact hns k ino h

@[simp] theorem lookup_bind_of_ne {ns : Namespace κ} {k k' : κ} {e : Entry}
    (hne : k' ≠ k) : (ns.bind k e).lookup k' = ns.lookup k' := by
  simp [lookup, bind, hne]

@[simp] theorem lookup_unbind_of_ne {ns : Namespace κ} {k k' : κ}
    (hne : k' ≠ k) : (ns.unbind k).lookup k' = ns.lookup k' := by
  simp [lookup, unbind, hne]

omit [DecidableEq κ] in
theorem lookup_eq_entries {ns : Namespace κ} {k : κ}
    (hdir : DirTree.dir k ≠ none) : ns.lookup k = ns.entries k := by
  rw [lookup]
  split
  next hnone => exact absurd hnone hdir
  · rfl

omit [DecidableEq κ] in
theorem dir_ne_none_of_holds {ns : Namespace κ} {k : κ}
    (hholds : ns.holds k = true) : DirTree.dir k ≠ none := by
  intro hnone
  rw [holds, hnone] at hholds
  cases hholds

omit [DecidableEq κ] in
theorem dir_ne_none_of_lookup {ns : Namespace κ} {k : κ} {ino : Nat}
    (h : ns.lookup k = some (.file ino)) : DirTree.dir k ≠ none := by
  intro hnone
  rw [lookup, hnone] at h
  cases h

omit [DecidableEq κ] in
theorem dir_ne_none_of_lookup_ne {ns : Namespace κ} {k : κ}
    (h : ns.lookup k ≠ some .dir) : DirTree.dir k ≠ none := by
  intro hnone
  rw [lookup, hnone] at h
  exact h rfl

theorem lookup_bind_self {ns : Namespace κ} {k : κ} {e : Entry}
    (hholds : ns.holds k = true) : (ns.bind k e).lookup k = some e := by
  rw [lookup_eq_entries (dir_ne_none_of_holds hholds), bind]
  exact Function.update_self k (some e) ns.entries

theorem lookup_unbind_self {ns : Namespace κ} {k : κ}
    (hdir : DirTree.dir k ≠ none) : (ns.unbind k).lookup k = none := by
  rw [lookup_eq_entries hdir, unbind]
  exact Function.update_self k none ns.entries

omit [DirTree κ] in
theorem below_bind_dir {n : Nat} {ns : Namespace κ} (hns : ns.Below n)
    (k : κ) : (ns.bind k .dir).Below n := by
  intro k' ino h
  by_cases hk : k' = k
  · subst hk
    simp [bind] at h
  · exact hns k' ino (by simpa [bind, hk] using h)

omit [DirTree κ] in
theorem below_bind_file {n ino : Nat} {ns : Namespace κ} (hns : ns.Below n)
    (k : κ) (hino : ino < n) : (ns.bind k (.file ino)).Below n := by
  intro k' ino' h
  by_cases hk : k' = k
  · subst hk
    simp only [bind, Function.update_self, Option.some.injEq,
      Entry.file.injEq] at h
    exact h ▸ hino
  · exact hns k' ino' (by simpa [bind, hk] using h)

omit [DirTree κ] in
theorem below_unbind {n : Nat} {ns : Namespace κ} (hns : ns.Below n)
    (k : κ) : (ns.unbind k).Below n := by
  intro k' ino h
  by_cases hk : k' = k
  · subst hk
    simp [unbind] at h
  · exact hns k' ino (by simpa [unbind, hk] using h)

omit [DirTree κ] [DecidableEq κ] in
theorem Below.mono {n m : Nat} {ns : Namespace κ} (hns : ns.Below n)
    (hle : n ≤ m) : ns.Below m :=
  fun k ino h => (hns k ino h).trans_le hle

end Namespace

/-- A change of the directory entries. -/
inductive Change (κ : Type*) where
  | mkdir (k : κ)
  /-- A new file. -/
  | link (k : κ) (ino : Nat)
  /-- In one step, the file under `src` goes to `dst` and replaces what was
  there. -/
  | rename (src dst : κ) (ino : Nat)
  deriving DecidableEq

namespace Change

/-- The entries after the change; it is lost where the directory it is to be
made in is missing. -/
def apply (ns : Namespace κ) : Change κ → Namespace κ
  | mkdir k => if ns.holds k then ns.bind k .dir else ns
  | link k ino => if ns.holds k then ns.bind k (.file ino) else ns
  | rename src dst ino =>
      if ns.holds dst then (ns.unbind src).bind dst (.file ino) else ns

/-- The names whose entries the change is about. -/
def names : Change κ → List κ
  | mkdir k => [k]
  | link k _ => [k]
  | rename src dst _ => [src, dst]

/-- The inode that the change gives a name to is below `n`. -/
def Below (n : Nat) : Change κ → Prop
  | mkdir _ => True
  | link _ ino => ino < n
  | rename _ _ ino => ino < n

omit [DirTree κ] [DecidableEq κ] in
theorem below_mkdir (n : Nat) (k : κ) : (mkdir k).Below n := trivial

omit [DirTree κ] [DecidableEq κ] in
theorem below_rename {n ino : Nat} (hino : ino < n) (src dst : κ) :
    (rename src dst ino).Below n := hino

omit [DirTree κ] [DecidableEq κ] in
theorem Below.mono {n m : Nat} {c : Change κ} (hc : c.Below n)
    (hle : n ≤ m) : c.Below m := by
  cases c with
  | mkdir k => trivial
  | link k ino => exact Nat.lt_of_lt_of_le hc hle
  | rename src dst ino => exact Nat.lt_of_lt_of_le hc hle

theorem below_apply {n : Nat} {ns : Namespace κ} {c : Change κ}
    (hns : ns.Below n) (hc : c.Below n) : (c.apply ns).Below n := by
  cases c with
  | mkdir k =>
      rw [apply]
      split
      · exact Namespace.below_bind_dir hns k
      · exact hns
  | link k ino =>
      rw [apply]
      split
      · exact Namespace.below_bind_file hns k hc
      · exact hns
  | rename src dst ino =>
      rw [apply]
      split
      · exact Namespace.below_bind_file (Namespace.below_unbind hns src) dst hc
      · exact hns

/-- A change leaves the other names alone. -/
theorem lookup_apply_of_not_mem {ns : Namespace κ} {c : Change κ} {k : κ}
    (hk : k ∉ c.names) : (c.apply ns).lookup k = ns.lookup k := by
  cases c with
  | mkdir k' =>
      simp only [names, List.mem_singleton] at hk
      rw [apply]
      split
      · exact Namespace.lookup_bind_of_ne hk
      · rfl
  | link k' ino =>
      simp only [names, List.mem_singleton] at hk
      rw [apply]
      split
      · exact Namespace.lookup_bind_of_ne hk
      · rfl
  | rename src dst ino =>
      simp only [names, List.mem_cons, List.not_mem_nil, or_false,
        not_or] at hk
      rw [apply]
      split
      · rw [Namespace.lookup_bind_of_ne hk.2,
          Namespace.lookup_unbind_of_ne hk.1]
      · rfl

theorem lookup_mkdir (ns : Namespace κ) (k : κ) :
    ((mkdir k).apply ns).lookup k =
      if ns.holds k then some .dir else ns.lookup k := by
  rw [apply]
  split
  next hholds => exact Namespace.lookup_bind_self hholds
  · rfl

theorem lookup_link (ns : Namespace κ) (k : κ) (ino : Nat) :
    ((link k ino).apply ns).lookup k =
      if ns.holds k then some (.file ino) else ns.lookup k := by
  rw [apply]
  split
  next hholds => exact Namespace.lookup_bind_self hholds
  · rfl

theorem lookup_rename_dst (ns : Namespace κ) (src dst : κ) (ino : Nat) :
    ((rename src dst ino).apply ns).lookup dst =
      if ns.holds dst then some (.file ino) else ns.lookup dst := by
  rw [apply]
  split
  next hholds =>
    rw [Namespace.lookup_eq_entries (Namespace.dir_ne_none_of_holds hholds)]
    exact Function.update_self dst _ _
  · rfl

theorem lookup_rename_src (ns : Namespace κ) {src dst : κ} (ino : Nat)
    (hne : src ≠ dst) (hdir : DirTree.dir src ≠ none) :
    ((rename src dst ino).apply ns).lookup src =
      if ns.holds dst then none else ns.lookup src := by
  rw [apply]
  split
  · rw [Namespace.lookup_bind_of_ne hne, Namespace.lookup_unbind_self hdir]
  · rfl

end Change

/-! ## The file system -/

/-- A file system: the entries on disk, the changes that are not yet there,
oldest first, and the contents of the files. -/
structure Fs (κ : Type*) [DirTree κ] [DecidableEq κ] where
  disk : Namespace κ
  pending : List (Change κ)
  data : Nat → List UInt8
  /-- The contents have not changed since the file was last synced. -/
  synced : Nat → Bool
  /-- The inode of the next new file. -/
  next : Nat
  disk_below : disk.Below next
  pending_below : ∀ c ∈ pending, c.Below next

namespace Fs

/-- The entries as every process sees them. -/
def current (fs : Fs κ) : Namespace κ := fs.pending.foldl Change.apply fs.disk

/-- What a name stands for now. -/
def lookup (fs : Fs κ) (k : κ) : Option Entry := fs.current.lookup k

/-- The contents of the file under a name, if it names a file. -/
def read (fs : Fs κ) (k : κ) : Option (List UInt8) :=
  match fs.lookup k with
  | some (.file ino) => some (fs.data ino)
  | _ => none

/-- The directory states that a crash may leave. -/
def Outcome (fs : Fs κ) (ns : Namespace κ) : Prop :=
  ∃ kept : List (Change κ),
    kept.Sublist fs.pending ∧ ns = kept.foldl Change.apply fs.disk

theorem below_foldl {n : Nat} {ns : Namespace κ} {cs : List (Change κ)}
    (hns : ns.Below n) (hcs : ∀ c ∈ cs, c.Below n) :
    (cs.foldl Change.apply ns).Below n := by
  induction cs generalizing ns with
  | nil => exact hns
  | cons c cs ih =>
      rw [List.forall_mem_cons] at hcs
      exact ih (Change.below_apply hns hcs.1) hcs.2

theorem Outcome.below {fs : Fs κ} {ns : Namespace κ} (hns : fs.Outcome ns) :
    ns.Below fs.next := by
  obtain ⟨kept, hkept, rfl⟩ := hns
  exact below_foldl fs.disk_below
    fun c hc => fs.pending_below c (hkept.subset hc)

/-- No file is under the name, and no crash brings one there. -/
def Absent (fs : Fs κ) (k : κ) : Prop :=
  ∀ ns, fs.Outcome ns → ∀ ino, ns.lookup k ≠ some (.file ino)

/-- Nothing need be lost. -/
theorem outcome_current (fs : Fs κ) : fs.Outcome fs.current :=
  ⟨fs.pending, List.Sublist.refl _, rfl⟩

theorem lookup_lt {fs : Fs κ} {k : κ} {ino : Nat}
    (h : fs.lookup k = some (.file ino)) : ino < fs.next :=
  Namespace.lookup_lt fs.outcome_current.below h

theorem read_of_lookup {fs : Fs κ} {k : κ} {ino : Nat}
    (h : fs.lookup k = some (.file ino)) : fs.read k = some (fs.data ino) := by
  rw [read, h]

theorem read_eq_some_iff {fs : Fs κ} {k : κ} {bytes : List UInt8} :
    fs.read k = some bytes ↔
      ∃ ino, fs.lookup k = some (.file ino) ∧ fs.data ino = bytes := by
  rw [read]
  split
  next ino hino => simp [hino]
  next hother =>
    refine iff_of_false nofun ?_
    rintro ⟨ino, hino, -⟩
    exact hother ino hino

/-! ## Operations on directory entries -/

/-- Make a change of the directory entries. -/
def push (fs : Fs κ) (c : Change κ) (hc : c.Below fs.next) : Fs κ :=
  { fs with
    pending := fs.pending ++ [c]
    pending_below := by
      intro c' hc'
      rcases List.mem_append.mp hc' with h | h
      · exact fs.pending_below c' h
      · exact List.mem_singleton.mp h ▸ hc }

@[simp] theorem current_push (fs : Fs κ) (c : Change κ)
    (hc : c.Below fs.next) : (fs.push c hc).current = c.apply fs.current := by
  simp [current, push]

theorem lookup_push (fs : Fs κ) (c : Change κ) (hc : c.Below fs.next)
    (k : κ) : (fs.push c hc).lookup k = (c.apply fs.current).lookup k := by
  rw [lookup, current_push]

/-- A part of the changes either misses the last one or ends with it. -/
theorem sublist_concat {kept cs : List (Change κ)} {c : Change κ}
    (hkept : kept.Sublist (cs ++ [c])) (ns : Namespace κ) :
    ∃ front : List (Change κ), front.Sublist cs ∧
      (kept.foldl Change.apply ns = front.foldl Change.apply ns ∨
        kept.foldl Change.apply ns =
          c.apply (front.foldl Change.apply ns)) := by
  obtain ⟨front, last, rfl, hfront, hlast⟩ := List.sublist_append_iff.mp hkept
  refine ⟨front, hfront, ?_⟩
  rcases List.sublist_singleton.mp hlast with rfl | rfl
  · left
    rw [List.append_nil]
  · right
    rw [List.foldl_append]
    rfl

/-- A crash after a change either loses it or leaves what it makes of an
earlier outcome. -/
theorem Outcome.of_push {fs : Fs κ} {c : Change κ} {hc : c.Below fs.next}
    {ns : Namespace κ} (hns : (fs.push c hc).Outcome ns) :
    ∃ ns', fs.Outcome ns' ∧ (ns = ns' ∨ ns = c.apply ns') := by
  obtain ⟨kept, hkept, rfl⟩ := hns
  obtain ⟨front, hfront, hcases⟩ := sublist_concat hkept fs.disk
  exact ⟨_, ⟨front, hfront, rfl⟩, hcases⟩

/-- Make a directory; fine if it exists. -/
def mkdir (fs : Fs κ) (k : κ) : Option (Fs κ) :=
  match fs.lookup k with
  | some .dir => some fs
  | some (.file _) => none
  | none =>
      if fs.current.holds k then
        some (fs.push (.mkdir k) (Change.below_mkdir _ k))
      else none

/-- A new empty file under a name. -/
def link (fs : Fs κ) (k : κ) : Fs κ where
  disk := fs.disk
  pending := fs.pending ++ [.link k fs.next]
  data := Function.update fs.data fs.next []
  synced := Function.update fs.synced fs.next false
  next := fs.next + 1
  disk_below := fs.disk_below.mono (Nat.le_succ _)
  pending_below := by
    intro c hc
    rcases List.mem_append.mp hc with h | h
    · exact (fs.pending_below c h).mono (Nat.le_succ _)
    · exact List.mem_singleton.mp h ▸ Nat.lt_succ_self _

@[simp] theorem current_link (fs : Fs κ) (k : κ) :
    (fs.link k).current = (Change.link k fs.next).apply fs.current := by
  simp [current, link]

theorem lookup_link (fs : Fs κ) (k k' : κ) :
    (fs.link k).lookup k' =
      ((Change.link k fs.next).apply fs.current).lookup k' := by
  rw [lookup, current_link]

theorem Outcome.of_link {fs : Fs κ} {k : κ} {ns : Namespace κ}
    (hns : (fs.link k).Outcome ns) :
    ∃ ns', fs.Outcome ns' ∧
      (ns = ns' ∨ ns = (Change.link k fs.next).apply ns') := by
  obtain ⟨kept, hkept, rfl⟩ := hns
  obtain ⟨front, hfront, hcases⟩ := sublist_concat hkept fs.disk
  exact ⟨_, ⟨front, hfront, rfl⟩, hcases⟩

/-- A new file leaves what is under other names. -/
theorem Outcome.of_link_of_ne {fs : Fs κ} {k k' : κ} {ns : Namespace κ}
    (hne : k' ≠ k) (hns : (fs.link k).Outcome ns) :
    ∃ ns', fs.Outcome ns' ∧ ns.lookup k' = ns'.lookup k' ∧
      (ns.lookup k = ns'.lookup k ∨
        ns.lookup k = some (.file fs.next)) := by
  obtain ⟨ns', hns', rfl | rfl⟩ := hns.of_link
  · exact ⟨_, hns', rfl, Or.inl rfl⟩
  · have hmem : k' ∉ (Change.link k fs.next).names := by
      simpa [Change.names] using hne
    refine ⟨ns', hns', Change.lookup_apply_of_not_mem hmem, ?_⟩
    rw [Change.lookup_link]
    split
    · exact Or.inr rfl
    · exact Or.inl rfl

/-- Move the file under `src` to `dst`. -/
def rename (fs : Fs κ) (src dst : κ) : Option (Fs κ) :=
  match h : fs.lookup src with
  | some (.file ino) =>
      if fs.current.holds dst && fs.lookup dst != some .dir then
        some (fs.push (.rename src dst ino)
          (Change.below_rename (lookup_lt h) src dst))
      else none
  | _ => none

/-! ## Operations on contents -/

/-- Change the contents of a file. -/
def setData (fs : Fs κ) (ino : Nat) (bytes : List UInt8) : Fs κ :=
  { fs with
    data := Function.update fs.data ino bytes
    synced := Function.update fs.synced ino false }

/-- The contents after a chunk has been written at an offset; a gap before
the offset is filled with zeros. -/
def splice (bytes : List UInt8) (off : Nat) (chunk : List UInt8) :
    List UInt8 :=
  bytes.take off ++ List.replicate (off - bytes.length) 0 ++ chunk ++
    bytes.drop (off + chunk.length)

/-- Write a chunk at an offset. -/
def pwrite (fs : Fs κ) (ino off : Nat) (chunk : List UInt8) : Fs κ :=
  fs.setData ino (splice (fs.data ino) off chunk)

/-- Sync a file's contents. -/
def fsync (fs : Fs κ) (ino : Nat) : Fs κ :=
  { fs with synced := Function.update fs.synced ino true }

/-- Open a file for writing, with no contents: a file that exists is
truncated, otherwise a new one is made. -/
def create (fs : Fs κ) (k : κ) : Option (Fs κ × Nat) :=
  match fs.lookup k with
  | some .dir => none
  | some (.file ino) => some (fs.setData ino [], ino)
  | none => if fs.current.holds k then some (fs.link k, fs.next) else none

@[simp] theorem data_setData_self (fs : Fs κ) (ino : Nat)
    (bytes : List UInt8) : (fs.setData ino bytes).data ino = bytes :=
  Function.update_self _ _ _

theorem data_setData_of_ne (fs : Fs κ) {ino i : Nat} (hne : i ≠ ino)
    (bytes : List UInt8) : (fs.setData ino bytes).data i = fs.data i :=
  Function.update_of_ne hne _ _

theorem synced_setData_of_ne (fs : Fs κ) {ino i : Nat} (hne : i ≠ ino)
    (bytes : List UInt8) : (fs.setData ino bytes).synced i = fs.synced i :=
  Function.update_of_ne hne _ _

@[simp] theorem synced_fsync_self (fs : Fs κ) (ino : Nat) :
    (fs.fsync ino).synced ino = true :=
  Function.update_self _ _ _

theorem synced_fsync_of_ne (fs : Fs κ) {ino i : Nat} (hne : i ≠ ino) :
    (fs.fsync ino).synced i = fs.synced i :=
  Function.update_of_ne hne _ _

@[simp] theorem data_link_self (fs : Fs κ) (k : κ) :
    (fs.link k).data fs.next = [] :=
  Function.update_self _ _ _

theorem data_link_of_ne (fs : Fs κ) (k : κ) {i : Nat} (hne : i ≠ fs.next) :
    (fs.link k).data i = fs.data i :=
  Function.update_of_ne hne _ _

theorem synced_link_of_ne (fs : Fs κ) (k : κ) {i : Nat} (hne : i ≠ fs.next) :
    (fs.link k).synced i = fs.synced i :=
  Function.update_of_ne hne _ _

/-- Writing the next chunk of `bytes` to a file that holds the chunks before
it. -/
theorem splice_take (bytes : List UInt8) {off n : Nat}
    (hbound : off + n ≤ bytes.length) :
    splice (bytes.take off) off ((bytes.drop off).take n) =
      bytes.take (off + n) := by
  have hoff : (bytes.take off).length = off := by
    rw [List.length_take]
    omega
  have hdrop : (bytes.take off).drop (off + ((bytes.drop off).take n).length) =
      [] := by
    rw [List.drop_eq_nil_iff]
    omega
  rw [splice, hdrop, hoff, Nat.sub_self, List.replicate_zero, List.append_nil,
    List.append_nil, List.take_take, Nat.min_self, List.take_add]

/-! ## What each operation does -/

/-- A directory that exists is left as it is; otherwise the change is to make
one where there was nothing. -/
theorem mkdir_spec {fs fs' : Fs κ} {k : κ} (h : fs.mkdir k = some fs') :
    (fs' = fs ∧ fs.lookup k = some .dir) ∨
      (fs' = fs.push (.mkdir k) (Change.below_mkdir _ k) ∧
        fs.lookup k = none ∧ fs.current.holds k = true) := by
  rw [mkdir] at h
  split at h
  next hdir => exact Or.inl ⟨(Option.some.inj h).symm, hdir⟩
  · cases h
  next hnone =>
    split at h
    next hholds => exact Or.inr ⟨(Option.some.inj h).symm, hnone, hholds⟩
    · cases h

theorem lookup_mkdir_self {fs fs' : Fs κ} {k : κ}
    (h : fs.mkdir k = some fs') : fs'.lookup k = some .dir := by
  rcases mkdir_spec h with ⟨rfl, hdir⟩ | ⟨rfl, -, hholds⟩
  · exact hdir
  · rw [lookup_push, Change.lookup_mkdir, if_pos hholds]

theorem lookup_mkdir_of_ne {fs fs' : Fs κ} {k k' : κ}
    (h : fs.mkdir k = some fs') (hne : k' ≠ k) :
    fs'.lookup k' = fs.lookup k' := by
  rcases mkdir_spec h with ⟨rfl, -⟩ | ⟨rfl, -⟩
  · rfl
  · rw [lookup_push,
      Change.lookup_apply_of_not_mem (by simpa [Change.names] using hne)]
    rfl

/-- Opening truncates the file that is there, or makes a new one. -/
theorem create_spec {fs fs' : Fs κ} {k : κ} {ino : Nat}
    (h : fs.create k = some (fs', ino)) :
    (fs' = fs.setData ino [] ∧ fs.lookup k = some (.file ino)) ∨
      (fs' = fs.link k ∧ ino = fs.next ∧ fs.lookup k = none ∧
        fs.current.holds k = true) := by
  rw [create] at h
  split at h
  · cases h
  next ino' hino =>
    simp only [Option.some.injEq, Prod.mk.injEq] at h
    obtain ⟨rfl, rfl⟩ := h
    exact Or.inl ⟨rfl, hino⟩
  next hnone =>
    split at h
    next hholds =>
      simp only [Option.some.injEq, Prod.mk.injEq] at h
      obtain ⟨rfl, rfl⟩ := h
      exact Or.inr ⟨rfl, rfl, hnone, hholds⟩
    · cases h

theorem lookup_create_self {fs fs' : Fs κ} {k : κ} {ino : Nat}
    (h : fs.create k = some (fs', ino)) :
    fs'.lookup k = some (.file ino) := by
  rcases create_spec h with ⟨rfl, hino⟩ | ⟨rfl, rfl, -, hholds⟩
  · exact hino
  · rw [lookup_link, Change.lookup_link, if_pos hholds]

theorem lookup_create_of_ne {fs fs' : Fs κ} {k k' : κ} {ino : Nat}
    (h : fs.create k = some (fs', ino)) (hne : k' ≠ k) :
    fs'.lookup k' = fs.lookup k' := by
  rcases create_spec h with ⟨rfl, -⟩ | ⟨rfl, -⟩
  · rfl
  · rw [lookup_link,
      Change.lookup_apply_of_not_mem (by simpa [Change.names] using hne)]
    rfl

theorem data_create_self {fs fs' : Fs κ} {k : κ} {ino : Nat}
    (h : fs.create k = some (fs', ino)) : fs'.data ino = [] := by
  rcases create_spec h with ⟨rfl, -⟩ | ⟨rfl, rfl, -⟩
  · exact Fs.data_setData_self _ _ _
  · exact Fs.data_link_self _ _

theorem data_create_of_ne {fs fs' : Fs κ} {k : κ} {ino i : Nat}
    (h : fs.create k = some (fs', ino)) (hne : i ≠ ino) :
    fs'.data i = fs.data i := by
  rcases create_spec h with ⟨rfl, -⟩ | ⟨rfl, rfl, -⟩
  · exact fs.data_setData_of_ne hne _
  · exact fs.data_link_of_ne k hne

/-- A rename moves the file that `src` names. -/
theorem rename_spec {fs fs' : Fs κ} {src dst : κ}
    (h : fs.rename src dst = some fs') :
    ∃ ino, ∃ hino : fs.lookup src = some (.file ino),
      fs' = fs.push (.rename src dst ino)
          (Change.below_rename (lookup_lt hino) src dst) ∧
        fs.current.holds dst = true ∧ fs.lookup dst ≠ some .dir := by
  rw [rename] at h
  split at h
  next ino hino =>
    split at h
    next hcond =>
      rw [Bool.and_eq_true, bne_iff_ne] at hcond
      exact ⟨ino, hino, (Option.some.inj h).symm, hcond⟩
    · cases h
  · cases h

/-- What a crash may leave after a rename is what it might have left before,
or has the file under its new name only. -/
theorem Outcome.of_rename {fs fs' : Fs κ} {src dst : κ} {ns : Namespace κ}
    (h : fs.rename src dst = some fs') (hne : src ≠ dst)
    (hns : fs'.Outcome ns) :
    fs.Outcome ns ∨
      (ns.lookup dst = fs.lookup src ∧ ns.lookup src = none) := by
  obtain ⟨ino, hino, rfl, -⟩ := rename_spec h
  obtain ⟨ns', hns', rfl | rfl⟩ := hns.of_push
  · exact Or.inl hns'
  · by_cases hholds : ns'.holds dst = true
    · right
      have hdir : DirTree.dir src ≠ none :=
        Namespace.dir_ne_none_of_lookup hino
      rw [Change.lookup_rename_dst, Change.lookup_rename_src _ _ hne hdir,
        if_pos hholds, if_pos hholds]
      exact ⟨hino.symm, rfl⟩
    · left
      rw [Change.apply, if_neg hholds]
      exact hns'

theorem lookup_rename_of_ne {fs fs' : Fs κ} {src dst k : κ}
    (h : fs.rename src dst = some fs') (hsrc : k ≠ src) (hdst : k ≠ dst) :
    fs'.lookup k = fs.lookup k := by
  obtain ⟨ino, hino, rfl, -⟩ := rename_spec h
  rw [lookup_push, Change.lookup_apply_of_not_mem
    (by simp [Change.names, hsrc, hdst])]
  rfl

theorem lookup_rename_dst {fs fs' : Fs κ} {src dst : κ} {ino : Nat}
    (h : fs.rename src dst = some fs')
    (hino : fs.lookup src = some (.file ino)) :
    fs'.lookup dst = some (.file ino) := by
  obtain ⟨ino', hino', rfl, hholds, -⟩ := rename_spec h
  rw [hino', Option.some.injEq, Entry.file.injEq] at hino
  rw [lookup_push, Change.lookup_rename_dst, if_pos hholds, hino]

theorem lookup_rename_src {fs fs' : Fs κ} {src dst : κ}
    (h : fs.rename src dst = some fs') (hne : src ≠ dst) :
    fs'.lookup src = none := by
  obtain ⟨ino, hino, rfl, hholds, -⟩ := rename_spec h
  rw [lookup_push, Change.lookup_rename_src _ _ hne
    (Namespace.dir_ne_none_of_lookup hino), if_pos hholds]

theorem data_rename {fs fs' : Fs κ} {src dst : κ}
    (h : fs.rename src dst = some fs') : fs'.data = fs.data := by
  obtain ⟨ino, hino, rfl, -⟩ := rename_spec h
  rfl

theorem exists_create {fs : Fs κ} {k : κ} (hdir : fs.lookup k ≠ some .dir)
    (hholds : fs.current.holds k = true) :
    ∃ fs' ino, fs.create k = some (fs', ino) := by
  rw [create]
  split
  next h => exact absurd h hdir
  next ino hino => exact ⟨_, _, rfl⟩
  next hnone => exact ⟨_, _, if_pos hholds⟩

theorem exists_rename {fs : Fs κ} {src dst : κ} {ino : Nat}
    (hsrc : fs.lookup src = some (.file ino))
    (hholds : fs.current.holds dst = true)
    (hdir : fs.lookup dst ≠ some .dir) :
    ∃ fs', fs.rename src dst = some fs' := by
  rw [rename]
  split
  next ino' hino => exact ⟨_, if_pos (by simp [hholds, hdir])⟩
  next hother => exact absurd hsrc (hother ino)

theorem mkdir_of_lookup {fs : Fs κ} {k : κ} (h : fs.lookup k = some .dir) :
    fs.mkdir k = some fs := by
  rw [mkdir, h]

/-- Opening a file makes and removes no directory. -/
theorem lookup_create_dir_iff {fs fs' : Fs κ} {k : κ} {ino : Nat}
    (h : fs.create k = some (fs', ino)) (k' : κ) :
    fs'.lookup k' = some .dir ↔ fs.lookup k' = some .dir := by
  by_cases hk : k' = k
  · subst hk
    rw [lookup_create_self h]
    refine iff_of_false nofun ?_
    rcases create_spec h with ⟨-, hfile⟩ | ⟨-, -, hnone, -⟩
    · rw [hfile]
      nofun
    · rw [hnone]
      nofun
  · rw [lookup_create_of_ne h hk]

/-- A rename makes and removes no directory. -/
theorem lookup_rename_dir_iff {fs fs' : Fs κ} {src dst : κ}
    (h : fs.rename src dst = some fs') (hne : src ≠ dst) (k : κ) :
    fs'.lookup k = some .dir ↔ fs.lookup k = some .dir := by
  obtain ⟨ino, hino, -, -, hdir⟩ := rename_spec h
  by_cases hsrc : k = src
  · subst hsrc
    rw [lookup_rename_src h hne, hino]
    exact iff_of_false nofun nofun
  · by_cases hdst : k = dst
    · subst hdst
      rw [lookup_rename_dst h hino]
      exact iff_of_false nofun hdir
    · rw [lookup_rename_of_ne h hsrc hdst]

/-- Whether a name's directory exists depends on the directories only. -/
theorem holds_congr {fs fs' : Fs κ} (hdirs : ∀ k, fs'.lookup k = some .dir ↔
    fs.lookup k = some .dir) (k : κ) :
    fs'.current.holds k = fs.current.holds k := by
  rw [Namespace.holds, Namespace.holds]
  split
  · rfl
  next d _ =>
    rw [Bool.eq_iff_iff, beq_iff_eq, beq_iff_eq]
    exact hdirs d

/-! ## Files with one name -/

/-- No file has two of the names. -/
def Unlinked (fs : Fs κ) (names : κ → Prop) : Prop :=
  ∀ k k' ino, names k → names k' → fs.lookup k = some (.file ino) →
    fs.lookup k' = some (.file ino) → k = k'

variable {names : κ → Prop}

/-- A single name is no second name of a file. -/
theorem unlinked_self (fs : Fs κ) (k : κ) : fs.Unlinked (· = k) := by
  rintro a b ino rfl rfl ha hb
  rfl

/-- Different names have different files. -/
theorem Unlinked.ino_ne {fs : Fs κ} {k k' : κ} {i i' : Nat}
    (hunlinked : fs.Unlinked names) (hk : names k) (hk' : names k')
    (hne : k ≠ k') (hi : fs.lookup k = some (.file i))
    (hi' : fs.lookup k' = some (.file i')) : i ≠ i' := by
  rintro rfl
  exact hne (hunlinked k k' _ hk hk' hi hi')

/-- Opening a file under one name does not touch the files under others. -/
theorem Unlinked.ne_of_create {fs fs' : Fs κ} {k k' : κ} {ino i : Nat}
    (hunlinked : fs.Unlinked names) (h : fs.create k = some (fs', ino))
    (hk : names k) (hk' : names k') (hne : k' ≠ k)
    (hi : fs.lookup k' = some (.file i)) : i ≠ ino := by
  rcases create_spec h with ⟨-, hfile⟩ | ⟨-, rfl, -⟩
  · exact hunlinked.ino_ne hk' hk hne hi hfile
  · exact (lookup_lt hi).ne

theorem synced_create_of_ne {fs fs' : Fs κ} {k : κ} {ino i : Nat}
    (h : fs.create k = some (fs', ino)) (hne : i ≠ ino) :
    fs'.synced i = fs.synced i := by
  rcases create_spec h with ⟨rfl, -⟩ | ⟨rfl, rfl, -⟩
  · exact fs.synced_setData_of_ne hne _
  · exact fs.synced_link_of_ne k hne

/-- A change that gives one name a file which no other name has, and leaves
the other names with their files or without. -/
theorem Unlinked.of_single {fs fs' : Fs κ} {k : κ} {ino : Nat}
    (hunlinked : fs.Unlinked names)
    (hself : fs'.lookup k = some (.file ino))
    (hother : ∀ k' i, names k' → k' ≠ k →
      fs'.lookup k' = some (.file i) →
        fs.lookup k' = some (.file i) ∧ i ≠ ino) : fs'.Unlinked names := by
  have hfile : ∀ i, fs'.lookup k = some (.file i) → i = ino := by
    intro i hi
    rw [hself, Option.some.injEq, Entry.file.injEq] at hi
    exact hi.symm
  intro a b i hnameA hnameB ha hb
  by_cases hak : a = k
  · by_contra hab
    subst hak
    exact (hother b i hnameB (Ne.symm hab) hb).2 (hfile i ha)
  · obtain ⟨haold, hne⟩ := hother a i hnameA hak ha
    have hbk : b ≠ k := by
      rintro rfl
      exact hne (hfile i hb)
    exact hunlinked a b i hnameA hnameB haold (hother b i hnameB hbk hb).1

theorem Unlinked.create {fs fs' : Fs κ} {k : κ} {ino : Nat}
    (hunlinked : fs.Unlinked names) (h : fs.create k = some (fs', ino))
    (hk : names k) : fs'.Unlinked names := by
  refine hunlinked.of_single (lookup_create_self h) ?_
  intro k' i hk' hne hi
  rw [lookup_create_of_ne h hne] at hi
  exact ⟨hi, hunlinked.ne_of_create h hk hk' hne hi⟩

theorem Unlinked.rename {fs fs' : Fs κ} {src dst : κ}
    (hunlinked : fs.Unlinked names) (h : fs.rename src dst = some fs')
    (hsrc : names src) (hne : src ≠ dst) : fs'.Unlinked names := by
  obtain ⟨ino, hino, -⟩ := rename_spec h
  refine hunlinked.of_single (lookup_rename_dst h hino) ?_
  intro k i hname hk hi
  have hks : k ≠ src := by
    rintro rfl
    rw [lookup_rename_src h hne] at hi
    cases hi
  rw [lookup_rename_of_ne h hks hk] at hi
  exact ⟨hi, hunlinked.ino_ne hname hsrc hks hi hino⟩

/-! ## Empty directories -/

/-- A file system with some directories and no files. -/
def ofDirectories (isDir : κ → Bool) : Fs κ where
  disk := ⟨fun k => if isDir k then some .dir else none⟩
  pending := []
  data _ := []
  synced _ := true
  next := 0
  disk_below := by
    intro k ino h
    dsimp only at h
    split at h <;> cases h
  pending_below := nofun

theorem lookup_ofDirectories_of_dir {isDir : κ → Bool} {k : κ}
    (h : isDir k = true) : (ofDirectories isDir).lookup k = some .dir := by
  rw [lookup, Namespace.lookup]
  split
  · rfl
  · exact if_pos h

theorem lookup_ofDirectories_of_not_dir {isDir : κ → Bool} {k : κ}
    (hdir : DirTree.dir k ≠ none) (h : isDir k = false) :
    (ofDirectories isDir).lookup k = none := by
  rw [lookup, Namespace.lookup_eq_entries hdir]
  exact if_neg (by rw [h]; nofun)

theorem lookup_ofDirectories_ne_file (isDir : κ → Bool) (k : κ) (ino : Nat) :
    (ofDirectories isDir).lookup k ≠ some (.file ino) := by
  intro hk
  have hdir := Namespace.dir_ne_none_of_lookup hk
  cases h : isDir k with
  | false =>
      rw [lookup_ofDirectories_of_not_dir hdir h] at hk
      cases hk
  | true =>
      rw [lookup_ofDirectories_of_dir h] at hk
      cases hk

theorem unlinked_ofDirectories (isDir : κ → Bool) (names : κ → Prop) :
    (ofDirectories isDir).Unlinked names := by
  intro k k' ino _ _ hk
  exact (lookup_ofDirectories_ne_file isDir k ino hk).elim

theorem absent_ofDirectories (isDir : κ → Bool) (k : κ) :
    (ofDirectories isDir).Absent k := by
  rintro ns ⟨kept, hkept, rfl⟩ ino
  have hnone : kept = [] := List.eq_nil_of_sublist_nil hkept
  subst hnone
  exact lookup_ofDirectories_ne_file isDir k ino

/-! ## Crashes -/

/-- The members of a list at the positions where the mask is set. -/
def keep {α : Type*} : List Bool → List α → List α
  | _, [] => []
  | [], _ :: _ => []
  | b :: bs, x :: xs => if b then x :: keep bs xs else keep bs xs

theorem keep_sublist {α : Type*} (mask : List Bool) (xs : List α) :
    (keep mask xs).Sublist xs := by
  induction xs generalizing mask with
  | nil =>
      cases mask with
      | nil => exact List.Sublist.refl _
      | cons b bs => exact List.Sublist.refl _
  | cons x xs ih =>
      cases mask with
      | nil => exact List.nil_sublist _
      | cons b bs =>
          rw [keep]
          split
          · exact (ih bs).cons_cons x
          · exact (ih bs).cons x

/-- The file system after a crash that keeps the pending changes where `kept`
is set and leaves the contents `lost` in the files that were not synced. -/
def crash (fs : Fs κ) (kept : List Bool) (lost : Nat → List UInt8) :
    Fs κ where
  disk := (keep kept fs.pending).foldl Change.apply fs.disk
  pending := []
  data ino := if fs.synced ino then fs.data ino else lost ino
  synced _ := true
  next := fs.next
  disk_below := below_foldl fs.disk_below
    fun c hc => fs.pending_below c ((keep_sublist kept _).subset hc)
  pending_below := nofun

/-- A crash leaves one of the outcomes. -/
theorem outcome_of_crash (fs : Fs κ) (kept : List Bool)
    (lost : Nat → List UInt8) : fs.Outcome (fs.crash kept lost).current :=
  ⟨_, keep_sublist kept fs.pending, rfl⟩

/-- After a crash, another one changes no directory entry. -/
theorem Outcome.of_crash {fs : Fs κ} {kept : List Bool}
    {lost : Nat → List UInt8} {ns : Namespace κ}
    (hns : (fs.crash kept lost).Outcome ns) :
    ns = (fs.crash kept lost).current := by
  obtain ⟨cs, hcs, rfl⟩ := hns
  rw [List.eq_nil_of_sublist_nil hcs]
  rfl

theorem data_crash_of_synced {fs : Fs κ} {ino : Nat}
    (hsynced : fs.synced ino = true) (kept : List Bool)
    (lost : Nat → List UInt8) : (fs.crash kept lost).data ino = fs.data ino :=
  if_pos hsynced

end Fs
end CrashFs
