import Kasou.Dhcp.Stretches

/-!
# Where the fields of a lease come from

The parser is followed with the numbers of the lines that give the values.  It
never looks at the lines `{`, and carries values across them: a lease has all
its fields from the block that its line `}` closes exactly when, in each
stretch that makes a lease, everything that is given before the last line `{`
is given again behind it.
-/

namespace Kasou
namespace Dhcp

open Command Stretch

/-! ## The parser with line numbers -/

/-- A value, with the number of the line that gave it. -/
structure Read where
  value : Text
  line : Nat
  deriving DecidableEq

/-- A lease, with the numbers of the lines that it was read from. -/
structure TracedLease where
  ip : Read
  hw : Read
  name : Option Read
  closing : Nat
  deriving DecidableEq

namespace TracedLease

/-- The lease without the numbers. -/
def lease (t : TracedLease) : DhcpLease :=
  ⟨t.ip.value, t.hw.value, t.name.map Read.value⟩

/-- Where the field was read. -/
def read (t : TracedLease) : Field → Option Read
  | .ipAddress => some t.ip
  | .hwAddress => some t.hw
  | .name => t.name

end TracedLease

/-- The state of the parser, with the numbers of the lines. -/
structure TracedScan where
  leases : List TracedLease
  currentIp : Option Read
  currentHw : Option Read
  currentName : Option Read

namespace TracedScan

def start : TracedScan := ⟨[], none, none, none⟩

/-- Close the block at this line. -/
def close (s : TracedScan) (n : Nat) : TracedScan :=
  match s.currentIp, s.currentHw with
  | some ip, some hw =>
      { start with leases := s.leases ++ [⟨ip, hw, s.currentName, n⟩] }
  | _, _ => { start with leases := s.leases }

/-- Read a trimmed line, with its number. -/
def scanLine (s : TracedScan) (l : Text × Nat) : TracedScan :=
  match item l.1 with
  | .close => s.close l.2
  | .ip value => { s with currentIp := some ⟨value, l.2⟩ }
  | .hw value => { s with currentHw := some ⟨value, l.2⟩ }
  | .name value => { s with currentName := some ⟨value, l.2⟩ }
  | .other => s

/-- The state without the numbers. -/
def erase (s : TracedScan) : Scan :=
  ⟨s.leases.map TracedLease.lease, s.currentIp.map Read.value,
    s.currentHw.map Read.value, s.currentName.map Read.value⟩

theorem erase_close (s : TracedScan) (n : Nat) :
    (s.close n).erase = s.erase.close := by
  obtain ⟨leases, ip, hw, name⟩ := s
  cases ip with
  | none => rfl
  | some ip =>
      cases hw with
      | none => rfl
      | some hw => simp [close, erase, Scan.close, start, Scan.start,
          TracedLease.lease]

theorem erase_scanLine (s : TracedScan) (l : Text × Nat) :
    (s.scanLine l).erase = s.erase.apply (item l.1) := by
  rw [scanLine]
  cases item l.1 with
  | close => exact s.erase_close l.2
  | ip value => rfl
  | hw value => rfl
  | name value => rfl
  | other => rfl

theorem erase_foldl (ls : List (Text × Nat)) (s : TracedScan) :
    (ls.foldl scanLine s).erase =
      (ls.map fun l => item l.1).foldl Scan.apply s.erase := by
  induction ls generalizing s with
  | nil => rfl
  | cons l ls ih => rw [List.foldl_cons, ih, erase_scanLine]; rfl

end TracedScan

/-- The trimmed lines with their numbers. -/
def numberedLines (content : Text) : List (Text × Nat) :=
  (trimmedLines content).zipIdx

/-- The leases of the file, with the lines that they were read from. -/
def traceLeases (content : Text) : List TracedLease :=
  ((numberedLines content).foldl TracedScan.scanLine TracedScan.start).leases

/-- Without the numbers these are the leases of the file. -/
theorem map_lease_traceLeases (content : Text) :
    (traceLeases content).map TracedLease.lease = parseLeases content := by
  have hlines : (numberedLines content).map (fun l => item l.1) =
      content.lines.map fun line => item line.trim := by
    rw [← Function.comp_def item Prod.fst, ← List.map_map, numberedLines,
      List.zipIdx_map_fst, trimmedLines, List.map_map]
    rfl
  rw [parseLeases_eq, ← hlines]
  exact congrArg Scan.leases
    (TracedScan.erase_foldl (numberedLines content) TracedScan.start)

/-! ## The stretches of lines -/

/-- Whether a numbered line closes a stretch. -/
def closesNumbered (l : Text × Nat) : Bool := decide (l.1 = "\x7d".toList)

/-- What a numbered line gives for the field. -/
def readOf (f : Field) (l : Text × Nat) : Option Read :=
  ((item l.1).value f).map fun value => ⟨value, l.2⟩

/-- The lease of these values, closed at this line. -/
def traceOf (v : Field → Option Read) (l : Text × Nat) :
    Option TracedLease :=
  match v .ipAddress, v .hwAddress with
  | some ip, some hw => some ⟨ip, hw, v .name, l.2⟩
  | _, _ => none

/-- The values given last in a stretch. -/
def lastReads (stretch : List (Text × Nat)) (f : Field) : Option Read :=
  lastValue (readOf f) stretch

/-- The value carried for the field. -/
def TracedScan.carried : Field → TracedScan → Option Read
  | .ipAddress, s => s.currentIp
  | .hwAddress, s => s.currentHw
  | .name, s => s.currentName

theorem TracedScan.scanLine_spec (s : TracedScan) {l : Text × Nat}
    (hl : closesNumbered l = false) :
    (∀ f, (s.scanLine l).carried f = (readOf f l).or (s.carried f)) ∧
      (s.scanLine l).leases = s.leases := by
  have hclose : item l.1 ≠ .close :=
    fun h => of_decide_eq_false hl (item_eq_close_iff.mp h)
  simp only [scanLine, readOf]
  cases hitem : item l.1 with
  | close => exact absurd hitem hclose
  | ip value => exact ⟨fun f => by cases f <;> rfl, rfl⟩
  | hw value => exact ⟨fun f => by cases f <;> rfl, rfl⟩
  | name value => exact ⟨fun f => by cases f <;> rfl, rfl⟩
  | other => exact ⟨fun f => by cases f <;> rfl, rfl⟩

theorem TracedScan.close_spec (s : TracedScan) {l : Text × Nat}
    (hl : closesNumbered l = true) :
    (∀ f, (s.scanLine l).carried f = none) ∧
      (s.scanLine l).leases =
        s.leases ++ (traceOf (fun f => s.carried f) l).toList := by
  rw [scanLine, item_eq_close_iff.mpr (of_decide_eq_true hl)]
  obtain ⟨leases, ip, hw, name⟩ := s
  cases ip with
  | none => exact ⟨fun f => by cases f <;> rfl, (List.append_nil _).symm⟩
  | some ip =>
      cases hw with
      | none => exact ⟨fun f => by cases f <;> rfl, (List.append_nil _).symm⟩
      | some hw => exact ⟨fun f => by cases f <;> rfl, rfl⟩

theorem traceLeases_eq_stretches (content : Text) :
    traceLeases content =
      (closed closesNumbered (numberedLines content)).filterMap fun s =>
        traceOf (lastReads s.1) s.2 := by
  have hstart : ∀ f, TracedScan.start.carried f = none := fun f => by
    cases f <;> rfl
  exact foldl_registers TracedScan.leases TracedScan.carried readOf traceOf
    (fun s _ hl => s.scanLine_spec hl) (fun s _ hl => s.close_spec hl) hstart
    (numberedLines content)

/-! ## Blocks -/

/-- The fields of the lease come from the block between the line `opening`,
which is `{`, and the line that closes the lease, which is `}`: no line of the
block is `{` or `}`, and each field is given by a line of the block. -/
structure FromBlock (lines : List Text) (t : TracedLease) (opening : Nat) :
    Prop where
  opens : lines[opening]? = some "\x7b".toList
  closes : lines[t.closing]? = some "\x7d".toList
  between : ∀ n line, opening < n → n < t.closing → lines[n]? = some line →
    line ≠ "\x7b".toList ∧ line ≠ "\x7d".toList
  fields : ∀ f r, t.read f = some r → opening < r.line ∧ r.line < t.closing ∧
    ∃ line, lines[r.line]? = some line ∧ (item line).value f = some r.value

/-- Some line gives the field. -/
def Gives (f : Field) (lines : List Text) : Prop :=
  ∃ line ∈ lines, f.key.toList <+: line

/-- The stretch has a line `{`, and all fields that it gives are given again
behind the last one. -/
def WellOpened (stretch : List Text) : Prop :=
  ∃ front block, stretch = front ++ "\x7b".toList :: block ∧
    "\x7b".toList ∉ block ∧ ∀ f, Gives f stretch → Gives f block

theorem lineStretches_eq (content : Text) :
    lineStretches content =
      (closed closesNumbered (numberedLines content)).map fun s =>
        (s.1.map Prod.fst, s.2.1) := by
  have hlines : trimmedLines content =
      (numberedLines content).map Prod.fst :=
    (List.zipIdx_map_fst 0 (trimmedLines content)).symm
  rw [lineStretches, hlines]
  exact closedFrom_map Prod.fst [] (numberedLines content)

theorem gives_iff {f : Field} {stretch : List (Text × Nat)} :
    Gives f (stretch.map Prod.fst) ↔ ∃ r, lastReads stretch f = some r := by
  have hread : ∀ l, (∃ r, readOf f l = some r) ↔ f.key.toList <+: l.1 := by
    intro l
    rw [key_prefix_iff, ← Option.isSome_iff_exists, readOf, Option.isSome_map]
  constructor
  · rintro ⟨line, hline, hkey⟩
    obtain ⟨l, hl, rfl⟩ := List.mem_map.mp hline
    obtain ⟨r, hr⟩ := (hread l).mpr hkey
    rw [← Option.ne_none_iff_exists', lastReads, ne_eq, lastValue_eq_none_iff]
    intro hnone
    rw [hnone l hl] at hr
    cases hr
  · rintro ⟨r, hr⟩
    obtain ⟨l, hl, hlr⟩ := exists_of_lastValue_eq_some hr
    exact ⟨l.1, List.mem_map_of_mem hl, (hread l).mp ⟨r, hlr⟩⟩

theorem mem_numberedLines {content line : Text} {n : Nat} :
    (line, n) ∈ numberedLines content ↔
      (trimmedLines content)[n]? = some line :=
  List.mk_mem_zipIdx_iff_getElem?

theorem pairwise_numberedLines (content : Text) :
    (numberedLines content).Pairwise fun l m => l.2 < m.2 := by
  have hnumbers : (List.range' 0 (trimmedLines content).length).Pairwise
      (· < ·) := List.pairwise_lt_range'
  rw [← List.zipIdx_map_snd 0 (trimmedLines content)] at hnumbers
  exact List.pairwise_map.mp hnumbers

/-- The lines between two lines of the file are those with the numbers between
theirs. -/
theorem mem_inner_iff {content : Text}
    {before front inner after : List (Text × Nat)} {o d : Text × Nat}
    (hlines : numberedLines content =
      before ++ ((front ++ o :: inner) ++ d :: after)) (l : Text × Nat) :
    l ∈ inner ↔ l ∈ numberedLines content ∧ o.2 < l.2 ∧ l.2 < d.2 := by
  have hlines : numberedLines content =
      (before ++ front) ++ o :: (inner ++ d :: after) := by
    rw [hlines]
    simp only [List.append_assoc, List.cons_append]
  have hsorted := pairwise_numberedLines content
  rw [hlines] at hsorted ⊢
  obtain ⟨-, hopened, hfront⟩ := List.pairwise_append.mp hsorted
  obtain ⟨hopen, hrest⟩ := List.pairwise_cons.mp hopened
  obtain ⟨-, hclosed, hinner⟩ := List.pairwise_append.mp hrest
  obtain ⟨hclose, -⟩ := List.pairwise_cons.mp hclosed
  constructor
  · intro hl
    exact ⟨by simp [hl], hopen l (by simp [hl]), hinner l hl d (by simp)⟩
  · rintro ⟨hl, hlow, hhigh⟩
    simp only [List.mem_append, List.mem_cons] at hl
    rcases hl with hl | rfl | hl | rfl | hl
    · have hlt := hfront l (List.mem_append.mpr hl) o (by simp)
      omega
    · omega
    · exact hl
    · omega
    · have hlt := hclose l hl
      omega

theorem traceOf_eq_some {v : Field → Option Read} {l : Text × Nat}
    {t : TracedLease} (h : traceOf v l = some t) :
    t.closing = l.2 ∧ ∀ f, t.read f = v f := by
  rw [traceOf] at h
  split at h
  next ip hw hip hhw =>
    obtain rfl := Option.some.inj h
    refine ⟨rfl, fun f => ?_⟩
    cases f with
    | ipAddress => exact hip.symm
    | hwAddress => exact hhw.symm
    | name => rfl
  next => cases h

theorem readOf_eq_some {f : Field} {l : Text × Nat} {r : Read}
    (h : readOf f l = some r) :
    (item l.1).value f = some r.value ∧ l.2 = r.line := by
  obtain ⟨value, hvalue, rfl⟩ := Option.map_eq_some_iff.mp h
  exact ⟨hvalue, rfl⟩

section Stretch

variable {content : Text} {stretch : List (Text × Nat)} {d : Text × Nat}
  {t : TracedLease}

/-- In a stretch that is opened well, the fields come from one block. -/
theorem exists_fromBlock
    (hmem : (stretch, d) ∈ closed closesNumbered (numberedLines content))
    (ht : traceOf (lastReads stretch) d = some t)
    (hopened : WellOpened (stretch.map Prod.fst)) :
    ∃ opening, FromBlock (trimmedLines content) t opening := by
  obtain ⟨before, after, hlines, hd, hinner, -⟩ :=
    exists_of_mem_closedFrom (List.forall_mem_nil _) hmem
  rw [List.nil_append] at hlines
  obtain ⟨hclosing, hreads⟩ := traceOf_eq_some ht
  obtain ⟨texts, block, htexts, hblock, hagain⟩ := hopened
  obtain ⟨front, tail, rfl, -, htail⟩ := List.map_eq_append_iff.mp htexts
  obtain ⟨o, inner, rfl, ho, rfl⟩ := List.map_eq_cons_iff.mp htail
  have hmem_inner := mem_inner_iff hlines
  refine ⟨o.2, ⟨?_, ?_, ?_, ?_⟩⟩
  · rw [← ho, ← mem_numberedLines, hlines]
    simp
  · have hd' : d.1 = "\x7d".toList := of_decide_eq_true hd
    rw [hclosing, ← hd', ← mem_numberedLines, hlines]
    simp
  · intro n line hlow hhigh hline
    rw [hclosing] at hhigh
    have hl := (hmem_inner (line, n)).mpr
      ⟨mem_numberedLines.mpr hline, hlow, hhigh⟩
    constructor
    · rintro rfl
      exact hblock (List.mem_map_of_mem hl)
    · exact of_decide_eq_false (hinner (line, n) (by simp [hl]))
  · intro f r hr
    rw [hreads] at hr
    obtain ⟨r', hr'⟩ := gives_iff.mp (hagain f (gives_iff.mpr ⟨r, hr⟩))
    -- the value given last in the stretch is given last in the block
    have hlast : lastReads inner f = some r := by
      rw [← hr, lastReads, lastReads, lastValue_append,
        ← List.singleton_append, lastValue_append]
      rw [lastReads] at hr'
      rw [hr']
      rfl
    obtain ⟨l, hl, hlr⟩ := exists_of_lastValue_eq_some hlast
    obtain ⟨hvalue, hline⟩ := readOf_eq_some hlr
    obtain ⟨hlmem, hlow, hhigh⟩ := (hmem_inner l).mp hl
    rw [hline] at hlow hhigh
    rw [hclosing]
    refine ⟨hlow, hhigh, l.1, ?_, hvalue⟩
    rw [← hline]
    exact mem_numberedLines.mp hlmem

/-- The line that opens the block of a lease stands in the stretch of the
lease: a closing line before the stretch would stand in the block. -/
theorem FromBlock.opening_mem_stretch {opening : Nat}
    (h : FromBlock (trimmedLines content) t opening)
    {before after : List (Text × Nat)}
    (hlines : numberedLines content = before ++ (stretch ++ d :: after))
    (hclosing : t.closing = d.2)
    (hbefore : ∀ l ∈ before.getLast?, closesNumbered l = true) :
    ("\x7b".toList, opening) ∈ stretch := by
  obtain ⟨hlow, hhigh, -⟩ := h.fields .ipAddress t.ip rfl
  have hsorted := pairwise_numberedLines content
  have hmem : ("\x7b".toList, opening) ∈ numberedLines content :=
    mem_numberedLines.mpr h.opens
  rw [hlines] at hsorted hmem
  obtain ⟨hsortedBefore, hrest, hafter⟩ := List.pairwise_append.mp hsorted
  rcases List.mem_append.mp hmem with hin | hin
  · obtain ⟨m, hlast⟩ : ∃ m, before.getLast? = some m := by
      rw [← Option.ne_none_iff_exists', ne_eq, List.getLast?_eq_none_iff]
      exact List.ne_nil_of_mem hin
    have hm : m.1 = "\x7d".toList := of_decide_eq_true (hbefore m hlast)
    obtain ⟨front, rfl⟩ := List.getLast?_eq_some_iff.mp hlast
    have hnumber : opening < m.2 := by
      rcases List.mem_append.mp hin with hfront | heq
      · exact (List.pairwise_append.mp hsortedBefore).2.2 _ hfront m
          (List.mem_singleton_self m)
      · rw [← List.mem_singleton.mp heq] at hm
        cases hm
    have hend : m.2 < t.closing := by
      rw [hclosing]
      exact hafter m (by simp) d (by simp)
    have hline : (trimmedLines content)[m.2]? = some m.1 := by
      rw [← mem_numberedLines, hlines]
      simp
    exact absurd hm (h.between m.2 m.1 hnumber hend hline).2
  · rcases List.mem_append.mp hin with hstretch | htail
    · exact hstretch
    · have htail : d.2 ≤ opening := by
        rcases List.mem_cons.mp htail with heq | hmem
        · rw [← heq]
        · exact Nat.le_of_lt ((List.pairwise_cons.mp
            (List.pairwise_append.mp hrest).2.1).1 _ hmem)
      omega

/-- When the fields of the lease come from one block, its stretch is opened
well. -/
theorem wellOpened_of_fromBlock
    (hmem : (stretch, d) ∈ closed closesNumbered (numberedLines content))
    (ht : traceOf (lastReads stretch) d = some t) {opening : Nat}
    (h : FromBlock (trimmedLines content) t opening) :
    WellOpened (stretch.map Prod.fst) := by
  obtain ⟨before, after, hlines, hd, hinner, hbefore⟩ :=
    exists_of_mem_closedFrom (List.forall_mem_nil _) hmem
  rw [List.nil_append] at hlines
  obtain ⟨hclosing, hreads⟩ := traceOf_eq_some ht
  have hopen := h.opening_mem_stretch hlines hclosing hbefore
  obtain ⟨front, inner, rfl⟩ := List.append_of_mem hopen
  have hmem_inner := mem_inner_iff hlines
  refine ⟨front.map Prod.fst, inner.map Prod.fst, by simp, ?_, ?_⟩
  · intro hbrace
    obtain ⟨l, hl, htext⟩ := List.mem_map.mp hbrace
    obtain ⟨hlmem, hlow, hhigh⟩ := (hmem_inner l).mp hl
    rw [← hclosing] at hhigh
    exact (h.between l.2 l.1 hlow hhigh (mem_numberedLines.mp hlmem)).1 htext
  · intro f hgives
    obtain ⟨r, hr⟩ := gives_iff.mp hgives
    obtain ⟨hlow, hhigh, line, hline, hvalue⟩ :=
      h.fields f r ((hreads f).trans hr)
    rw [hclosing] at hhigh
    have hl := (hmem_inner (line, r.line)).mpr
      ⟨mem_numberedLines.mpr hline, hlow, hhigh⟩
    refine ⟨line, List.mem_map_of_mem hl, ?_⟩
    rw [key_prefix_iff, hvalue]
    rfl

end Stretch

/-! ## Leases from one block -/

/-- **A lease mixes no two blocks exactly when its stretch is opened well.**
Every lease of the file has all its fields from the block that its line `}`
closes if and only if each closed stretch with both addresses has a line `{`
and gives behind the last one all the fields that it gives at all. -/
theorem leases_fromBlock_iff (content : Text) :
    (traceLeases content).map TracedLease.lease = parseLeases content ∧
      ((∀ t ∈ traceLeases content,
          ∃ opening, FromBlock (trimmedLines content) t opening) ↔
        ∀ s ∈ lineStretches content, Gives .ipAddress s.1 →
          Gives .hwAddress s.1 → WellOpened s.1) := by
  refine ⟨map_lease_traceLeases content, ?_⟩
  rw [traceLeases_eq_stretches, lineStretches_eq]
  constructor
  · intro h s hs hip hhw
    obtain ⟨⟨stretch, d⟩, hmem, rfl⟩ := List.mem_map.mp hs
    obtain ⟨ip, hip⟩ := gives_iff.mp hip
    obtain ⟨hw, hhw⟩ := gives_iff.mp hhw
    have ht : traceOf (lastReads stretch) d =
        some ⟨ip, hw, lastReads stretch .name, d.2⟩ := by
      rw [traceOf, hip, hhw]
    obtain ⟨opening, hopening⟩ := h _ (List.mem_filterMap.mpr ⟨_, hmem, ht⟩)
    exact wellOpened_of_fromBlock hmem ht hopening
  · intro h t ht
    obtain ⟨⟨stretch, d⟩, hmem, ht⟩ := List.mem_filterMap.mp ht
    obtain ⟨-, hreads⟩ := traceOf_eq_some ht
    refine exists_fromBlock hmem ht (h _ (List.mem_map_of_mem hmem) ?_ ?_)
    · exact gives_iff.mpr ⟨t.ip, (hreads .ipAddress).symm⟩
    · exact gives_iff.mpr ⟨t.hw, (hreads .hwAddress).symm⟩

/-- A block that is not closed, and one without `ip_address` behind it. -/
def unclosedFile : Text :=
  "\x7b\nip_address=10.0.0.1\n\x7b\nhw_address=1,aa:bb\n\x7d\n".toList

/-- The lease has its IP address from the block that is not closed. -/
theorem unclosedFile_mixed :
    parseLeases unclosedFile =
        [⟨"10.0.0.1".toList, "aa:bb".toList, none⟩] ∧
      ¬ ∀ t ∈ traceLeases unclosedFile,
        ∃ opening, FromBlock (trimmedLines unclosedFile) t opening := by
  have htrace : traceLeases unclosedFile =
      [⟨⟨"10.0.0.1".toList, 1⟩, ⟨"aa:bb".toList, 3⟩, none, 4⟩] := by decide
  refine ⟨by decide, fun h => ?_⟩
  rw [htrace] at h
  obtain ⟨opening, hblock⟩ := h _ (List.mem_singleton_self _)
  have hfirst : opening < 1 := (hblock.fields .ipAddress _ rfl).1
  have hsecond : (trimmedLines unclosedFile)[2]? = some "\x7b".toList := by
    decide
  have hbetween := hblock.between 2 _ (by omega) (by decide) hsecond
  exact hbetween.1 rfl

end Dhcp
end Kasou
