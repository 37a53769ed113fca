import Kasou.Builder
import Kasou.Library.Command

/-!
# What a sequence of builder calls configures

Each slot of the builder holds the last value given for it, disks and shared
directories are listed in call order, and the boot source is what the last
phase of boot-related calls makes of nothing.
-/

namespace Kasou

open Command

/-! ## The slots of the calls -/

/-- The two families of boot-related calls. -/
inductive BootFamily where
  | linux
  | efi
  deriving DecidableEq

namespace BootCall

def family : BootCall → BootFamily
  | .boot _ => .linux
  | .initrd _ => .linux
  | .cmdline _ => .linux
  | .efiBoot => .efi
  | .efiVariableStore _ => .efi

def kernelValue : BootCall → Option Path
  | .boot path => some path
  | _ => none

def initrdValue : BootCall → Option Path
  | .initrd path => some path
  | _ => none

def cmdlineValue : BootCall → Option Text
  | .cmdline text => some text
  | _ => none

def storeValue : BootCall → Option Path
  | .efiVariableStore path => some path
  | _ => none

end BootCall

namespace BuilderCall

@[simp] def machineIdentifierPathValue : BuilderCall → Option Path
  | .machineIdentifierPath path => some path
  | _ => none

@[simp] def cpusValue : BuilderCall → Option UInt32
  | .cpus count => some count
  | _ => none

@[simp] def memoryMibValue : BuilderCall → Option UInt64
  | .memoryMib size => some size
  | _ => none

@[simp] def bootCall : BuilderCall → Option BootCall
  | .bootRelated call => some call
  | _ => none

@[simp] def diskValue : BuilderCall → Option DiskConfig
  | .disk path => some { path := path, readOnly := false }
  | .diskReadonly path => some { path := path, readOnly := true }
  | _ => none

@[simp] def serialValue : BuilderCall → Option SerialConfig
  | .serialFile path => some { logPath := path }
  | _ => none

@[simp] def sharedDirValue : BuilderCall → Option SharedDirConfig
  | .sharedDir tag hostPath readOnly => some { tag, hostPath, readOnly }
  | _ => none

/-- The address given by `mac`, or made by `deterministic_mac`. -/
@[simp] def macValue (hasher : Text → Text → UInt64) (id : VmId) :
    BuilderCall → Option Text
  | .mac text => some text
  | .deterministicMac seed =>
      some (MacAddress.deterministic hasher seed id).display
  | _ => none

end BuilderCall

/-- The boot source of a family with the last value of each field. -/
def lastBootValues (family : BootFamily) (calls : List BootCall) : BootMode :=
  match family with
  | .linux =>
      .linux (lastValue BootCall.kernelValue calls)
        (lastValue BootCall.initrdValue calls)
        (lastValue BootCall.cmdlineValue calls)
  | .efi => .efi (lastValue BootCall.storeValue calls)

/-- The boot source that a sequence of boot-related calls selects: that of the
last call's family, with the last value of each field among the calls of that
family at the end of the sequence. -/
def selectedBoot (calls : List BootCall) : BootMode :=
  match calls.getLast? with
  | none => default
  | some call =>
      lastBootValues call.family (lastPhase BootCall.family calls)

/-- What a sequence of calls configures, slot by slot. -/
def slots (hasher : Text → Text → UInt64) (id : VmId)
    (calls : List BuilderCall) : VmConfigBuilder where
  id := id
  cpus := (lastValue BuilderCall.cpusValue calls).getD 2
  memoryMib := (lastValue BuilderCall.memoryMibValue calls).getD 2048
  bootMode := selectedBoot (calls.filterMap BuilderCall.bootCall)
  disks := calls.filterMap BuilderCall.diskValue
  mac := lastValue (BuilderCall.macValue hasher id) calls
  serial := lastValue BuilderCall.serialValue calls
  sharedDirs := calls.filterMap BuilderCall.sharedDirValue
  machineIdentifierPath :=
    lastValue BuilderCall.machineIdentifierPathValue calls

/-! ## The boot source -/

namespace BootMode

/-- The effect of a boot-related call on the boot source alone. -/
def apply (mode : BootMode) (call : BootCall) : BootMode :=
  (({ VmConfigBuilder.new [] with bootMode := mode }).applyBoot call).bootMode

def family : BootMode → BootFamily
  | .linux _ _ _ => .linux
  | .efi _ => .efi

/-- The boot source of a family with nothing set. -/
def start : BootFamily → BootMode
  | .linux => .linux none none none
  | .efi => .efi none

def kernel : BootMode → Option Path
  | .linux kernel _ _ => kernel
  | .efi _ => none

def initrd : BootMode → Option Path
  | .linux _ initrd _ => initrd
  | .efi _ => none

def cmdline : BootMode → Option Text
  | .linux _ _ cmdline => cmdline
  | .efi _ => none

def variableStore : BootMode → Option Path
  | .linux _ _ _ => none
  | .efi variableStore => variableStore

theorem family_apply (mode : BootMode) (call : BootCall) :
    (mode.apply call).family = call.family := by
  cases mode <;> cases call <;> rfl

/-- A call of the other family starts afresh. -/
theorem apply_of_family_ne {mode : BootMode} {call : BootCall}
    (h : mode.family ≠ call.family) :
    mode.apply call = (start call.family).apply call := by
  cases mode with
  | linux _ _ _ =>
      cases call with
      | efiBoot => rfl
      | efiVariableStore _ => rfl
      | _ => exact absurd rfl h
  | efi _ =>
      cases call with
      | efiBoot => exact absurd rfl h
      | efiVariableStore _ => exact absurd rfl h
      | _ => rfl

theorem kernel_apply (mode : BootMode) (call : BootCall)
    (h : call.family = .linux) :
    (mode.apply call).kernel = call.kernelValue.or mode.kernel := by
  cases mode <;> cases call <;> first | rfl | cases h

theorem initrd_apply (mode : BootMode) (call : BootCall)
    (h : call.family = .linux) :
    (mode.apply call).initrd = call.initrdValue.or mode.initrd := by
  cases mode <;> cases call <;> first | rfl | cases h

theorem cmdline_apply (mode : BootMode) (call : BootCall)
    (h : call.family = .linux) :
    (mode.apply call).cmdline = call.cmdlineValue.or mode.cmdline := by
  cases mode <;> cases call <;> first | rfl | cases h

theorem variableStore_apply (mode : BootMode) (call : BootCall)
    (h : call.family = .efi) :
    (mode.apply call).variableStore =
      call.storeValue.or mode.variableStore := by
  cases mode <;> cases call <;> first | rfl | cases h

theorem eq_linux_of_family {mode : BootMode} (h : mode.family = .linux) :
    mode = .linux mode.kernel mode.initrd mode.cmdline := by
  cases mode with
  | linux _ _ _ => rfl
  | efi _ => cases h

theorem eq_efi_of_family {mode : BootMode} (h : mode.family = .efi) :
    mode = .efi mode.variableStore := by
  cases mode with
  | linux _ _ _ => cases h
  | efi _ => rfl

theorem family_foldl {family : BootFamily} {calls : List BootCall}
    (h : ∀ call ∈ calls, call.family = family) {mode : BootMode}
    (hmode : mode.family = family) :
    (calls.foldl apply mode).family = family := by
  induction calls using List.reverseRecOn with
  | nil => exact hmode
  | append_singleton calls call _ =>
      rw [List.foldl_concat, family_apply]
      exact h call (by simp)

end BootMode

/-- Calls of one family give each field of its boot source the last value. -/
theorem foldl_apply_start {calls : List BootCall} {family : BootFamily}
    (h : ∀ call ∈ calls, call.family = family) :
    calls.foldl BootMode.apply (BootMode.start family) =
      lastBootValues family calls := by
  cases family with
  | linux =>
      let mode := calls.foldl BootMode.apply (BootMode.start .linux)
      have hkernel : mode.kernel =
          (lastValue BootCall.kernelValue calls).or none :=
        foldl_register
          (fun mode c hc => BootMode.kernel_apply mode c (h c hc)) _
      have hinitrd : mode.initrd =
          (lastValue BootCall.initrdValue calls).or none :=
        foldl_register
          (fun mode c hc => BootMode.initrd_apply mode c (h c hc)) _
      have hcmdline : mode.cmdline =
          (lastValue BootCall.cmdlineValue calls).or none :=
        foldl_register
          (fun mode c hc => BootMode.cmdline_apply mode c (h c hc)) _
      rw [BootMode.eq_linux_of_family (BootMode.family_foldl h rfl), hkernel,
        hinitrd, hcmdline, Option.or_none, Option.or_none, Option.or_none,
        lastBootValues]
  | efi =>
      let mode := calls.foldl BootMode.apply (BootMode.start .efi)
      have hstore : mode.variableStore =
          (lastValue BootCall.storeValue calls).or none :=
        foldl_register
          (fun mode c hc => BootMode.variableStore_apply mode c (h c hc)) _
      rw [BootMode.eq_efi_of_family (BootMode.family_foldl h rfl), hstore,
        Option.or_none, lastBootValues]

/-- Boot-related calls after `new` select the boot source. -/
theorem foldl_bootCalls (calls : List BootCall) :
    calls.foldl BootMode.apply default = selectedBoot calls := by
  rw [selectedBoot]
  cases hlast : calls.getLast? with
  | none => rw [List.getLast?_eq_none_iff.mp hlast]; rfl
  | some call =>
      rw [foldl_lastPhase BootMode.family_apply
        (fun _ _ => BootMode.apply_of_family_ne) rfl hlast]
      exact foldl_apply_start fun c hc => family_of_mem_lastPhase _ hlast hc

theorem selectedBoot_concat (calls : List BootCall) (call : BootCall) :
    selectedBoot (calls ++ [call]) = (selectedBoot calls).apply call := by
  rw [← foldl_bootCalls, ← foldl_bootCalls, List.foldl_concat]

/-! ## All slots -/

/-- What one call gives to each slot. -/
theorem VmConfigBuilder.apply_eq (hasher : Text → Text → UInt64)
    (b : VmConfigBuilder) (call : BuilderCall) :
    b.apply hasher call =
      { id := b.id
        cpus := call.cpusValue.getD b.cpus
        memoryMib := call.memoryMibValue.getD b.memoryMib
        bootMode := call.bootCall.elim b.bootMode b.bootMode.apply
        disks := b.disks ++ call.diskValue.toList
        mac := (call.macValue hasher b.id).or b.mac
        serial := call.serialValue.or b.serial
        sharedDirs := b.sharedDirs ++ call.sharedDirValue.toList
        machineIdentifierPath :=
          call.machineIdentifierPathValue.or b.machineIdentifierPath } := by
  cases call with
  | bootRelated c =>
      cases c <;>
        simp [apply, applyBoot, boot, initrd, cmdline, efiBoot,
          efiVariableStore, BootMode.apply]
  | _ =>
      simp [apply, setMachineIdentifierPath, setCpus, setMemoryMib, disk,
        diskReadonly, natNetwork, setMac, deterministicMac, serialFile,
        sharedDir]

/-- One more call gives each slot its value. -/
theorem slots_concat (hasher : Text → Text → UInt64) (id : VmId)
    (calls : List BuilderCall) (call : BuilderCall) :
    slots hasher id (calls ++ [call]) =
      (slots hasher id calls).apply hasher call := by
  have hboot : ∀ calls : List BootCall,
      selectedBoot (calls ++ call.bootCall.toList) =
        call.bootCall.elim (selectedBoot calls) (selectedBoot calls).apply := by
    intro calls
    cases call.bootCall with
    | none => simp
    | some c => exact selectedBoot_concat calls c
  rw [VmConfigBuilder.apply_eq]
  simp only [slots, lastValue_concat, filterMap_concat, Option.getD_or, hboot]

/-- A builder holds what its calls configure, slot by slot. -/
theorem ofCalls_eq_slots (hasher : Text → Text → UInt64) (id : VmId)
    (calls : List BuilderCall) :
    VmConfigBuilder.ofCalls hasher id calls = slots hasher id calls := by
  induction calls using List.reverseRecOn with
  | nil => rfl
  | append_singleton calls call ih =>
      rw [VmConfigBuilder.ofCalls] at ih ⊢
      rw [List.foldl_concat, ih, slots_concat]

/-! ## The order of calls to different slots -/

/-- The slots that calls write to. -/
inductive Slot where
  | machineIdentifierPath
  | cpus
  | memoryMib
  | kernel
  | initrd
  | cmdline
  | efiBoot
  | variableStore
  | disks
  | mac
  | serial
  | sharedDirs
  deriving DecidableEq

/-- The slot of a boot-related call. -/
def BootCall.slot : BootCall → Slot
  | .boot _ => .kernel
  | .initrd _ => .initrd
  | .cmdline _ => .cmdline
  | .efiBoot => .efiBoot
  | .efiVariableStore _ => .variableStore

/-- The slot of a call; `nat_network` writes to none. -/
def BuilderCall.slot : BuilderCall → Option Slot
  | .machineIdentifierPath _ => some .machineIdentifierPath
  | .cpus _ => some .cpus
  | .memoryMib _ => some .memoryMib
  | .bootRelated call => some call.slot
  | .disk _ => some .disks
  | .diskReadonly _ => some .disks
  | .natNetwork => none
  | .mac _ => some .mac
  | .deterministicMac _ => some .mac
  | .serialFile _ => some .serial
  | .sharedDir _ _ _ => some .sharedDirs

/-- Two sequences make the same calls to each slot in the same order. -/
def SameSlotOrder (calls₁ calls₂ : List BuilderCall) : Prop :=
  ∀ slot : Slot, calls₁.filter (·.slot = some slot) =
    calls₂.filter (·.slot = some slot)

/-- All boot-related calls are of one family. -/
def OneFamily (calls : List BuilderCall) : Prop :=
  ∃ family : BootFamily, ∀ call ∈ calls.filterMap BuilderCall.bootCall,
    call.family = family

/-- Sequences with the same calls to each slot select the same values for
it. -/
theorem SameSlotOrder.filterMap_eq {calls₁ calls₂ : List BuilderCall}
    (h : SameSlotOrder calls₁ calls₂) {α : Type} (slot : Slot)
    (value : BuilderCall → Option α)
    (hvalue : ∀ call a, value call = some a → call.slot = some slot) :
    calls₁.filterMap value = calls₂.filterMap value := by
  have hfilter := fun calls : List BuilderCall =>
    filterMap_filter_of_imp (p := fun call => call.slot = some slot)
      (fun call a hc => decide_eq_true (hvalue call a hc)) calls
  rw [← hfilter calls₁, ← hfilter calls₂, h slot]

/-- The same boot-related calls stand in both sequences. -/
theorem SameSlotOrder.mem_bootCalls {calls₁ calls₂ : List BuilderCall}
    (h : SameSlotOrder calls₁ calls₂) {c : BootCall}
    (hc : c ∈ calls₁.filterMap BuilderCall.bootCall) :
    c ∈ calls₂.filterMap BuilderCall.bootCall := by
  obtain ⟨call, hmem, hcall⟩ := List.mem_filterMap.mp hc
  cases call with
  | bootRelated d =>
      obtain rfl := Option.some.inj hcall
      refine List.mem_filterMap.mpr ⟨.bootRelated d, ?_, rfl⟩
      have hfilter : .bootRelated d ∈
          calls₁.filter (·.slot = some d.slot) :=
        List.mem_filter.mpr ⟨hmem, decide_eq_true rfl⟩
      rw [h] at hfilter
      exact (List.mem_filter.mp hfilter).1
  | _ => cases hcall

/-- Calls of one family are one phase. -/
theorem selectedBoot_of_family {calls : List BootCall} {family : BootFamily}
    (h : ∀ call ∈ calls, call.family = family) (hne : calls ≠ []) :
    selectedBoot calls = lastBootValues family calls := by
  rw [selectedBoot, List.getLast?_eq_some_getLast hne,
    lastPhase_eq_self BootCall.family h]
  exact congrArg (lastBootValues · calls) (h _ (List.getLast_mem hne))

/-- A value of the boot-related calls, as one of all calls. -/
theorem lastValue_bootCall {α : Type} (value : BootCall → Option α)
    (calls : List BuilderCall) :
    lastValue value (calls.filterMap BuilderCall.bootCall) =
      lastValue (fun call => call.bootCall.bind value) calls := by
  rw [lastValue, lastValue, List.filterMap_filterMap]

theorem SameSlotOrder.lastValue_bootCall_eq {calls₁ calls₂ : List BuilderCall}
    (h : SameSlotOrder calls₁ calls₂) {α : Type} (slot : Slot)
    (value : BootCall → Option α)
    (hvalue : ∀ c a, value c = some a → c.slot = slot) :
    lastValue value (calls₁.filterMap BuilderCall.bootCall) =
      lastValue value (calls₂.filterMap BuilderCall.bootCall) := by
  rw [lastValue_bootCall, lastValue_bootCall, lastValue, lastValue]
  congr 1
  refine h.filterMap_eq slot _ fun call a hcall => ?_
  obtain ⟨c, hc, ha⟩ := Option.bind_eq_some_iff.mp hcall
  cases call with
  | bootRelated d =>
      obtain rfl := Option.some.inj hc
      exact congrArg some (hvalue d a ha)
  | _ => cases hc

theorem SameSlotOrder.symm {calls₁ calls₂ : List BuilderCall}
    (h : SameSlotOrder calls₁ calls₂) : SameSlotOrder calls₂ calls₁ :=
  fun slot => (h slot).symm

theorem SameSlotOrder.lastBootValues_eq {calls₁ calls₂ : List BuilderCall}
    (h : SameSlotOrder calls₁ calls₂) (family : BootFamily) :
    lastBootValues family (calls₁.filterMap BuilderCall.bootCall) =
      lastBootValues family (calls₂.filterMap BuilderCall.bootCall) := by
  have hkernel := h.lastValue_bootCall_eq .kernel BootCall.kernelValue
    (by rintro (_ | _ | _ | _ | _) _ ha <;> first | rfl | cases ha)
  have hinitrd := h.lastValue_bootCall_eq .initrd BootCall.initrdValue
    (by rintro (_ | _ | _ | _ | _) _ ha <;> first | rfl | cases ha)
  have hcmdline := h.lastValue_bootCall_eq .cmdline BootCall.cmdlineValue
    (by rintro (_ | _ | _ | _ | _) _ ha <;> first | rfl | cases ha)
  have hstore := h.lastValue_bootCall_eq .variableStore BootCall.storeValue
    (by rintro (_ | _ | _ | _ | _) _ ha <;> first | rfl | cases ha)
  cases family with
  | linux => rw [lastBootValues, lastBootValues, hkernel, hinitrd, hcmdline]
  | efi => rw [lastBootValues, lastBootValues, hstore]

theorem SameSlotOrder.selectedBoot_eq {calls₁ calls₂ : List BuilderCall}
    (h : SameSlotOrder calls₁ calls₂)
    (hone₁ : OneFamily calls₁) (hone₂ : OneFamily calls₂) :
    selectedBoot (calls₁.filterMap BuilderCall.bootCall) =
      selectedBoot (calls₂.filterMap BuilderCall.bootCall) := by
  obtain ⟨family₁, hfamily₁⟩ := hone₁
  obtain ⟨family₂, hfamily₂⟩ := hone₂
  by_cases hnil : calls₁.filterMap BuilderCall.bootCall = []
  · have hnil₂ : calls₂.filterMap BuilderCall.bootCall = [] := by
      rw [List.eq_nil_iff_forall_not_mem] at hnil ⊢
      exact fun c hc => hnil c (h.symm.mem_bootCalls hc)
    rw [hnil, hnil₂]
  · obtain ⟨c, hc⟩ := List.exists_mem_of_ne_nil _ hnil
    have hc₂ := h.mem_bootCalls hc
    obtain rfl : family₁ = family₂ :=
      (hfamily₁ c hc).symm.trans (hfamily₂ c hc₂)
    rw [selectedBoot_of_family hfamily₁ hnil,
      selectedBoot_of_family hfamily₂ (List.ne_nil_of_mem hc₂),
      h.lastBootValues_eq]

/-- Sequences with one boot family and the same calls to each slot configure
the same. -/
theorem SameSlotOrder.slots_eq {calls₁ calls₂ : List BuilderCall}
    (h : SameSlotOrder calls₁ calls₂)
    (hone₁ : OneFamily calls₁) (hone₂ : OneFamily calls₂)
    (hasher : Text → Text → UInt64) (id : VmId) :
    slots hasher id calls₁ = slots hasher id calls₂ := by
  have hpath := h.filterMap_eq .machineIdentifierPath
    BuilderCall.machineIdentifierPathValue
    (by intro call _ ha; cases call <;> first | rfl | cases ha)
  have hcpus := h.filterMap_eq .cpus BuilderCall.cpusValue
    (by intro call _ ha; cases call <;> first | rfl | cases ha)
  have hmemory := h.filterMap_eq .memoryMib BuilderCall.memoryMibValue
    (by intro call _ ha; cases call <;> first | rfl | cases ha)
  have hdisks := h.filterMap_eq .disks BuilderCall.diskValue
    (by intro call _ ha; cases call <;> first | rfl | cases ha)
  have hmac := h.filterMap_eq .mac (BuilderCall.macValue hasher id)
    (by intro call _ ha; cases call <;> first | rfl | cases ha)
  have hserial := h.filterMap_eq .serial BuilderCall.serialValue
    (by intro call _ ha; cases call <;> first | rfl | cases ha)
  have hdirs := h.filterMap_eq .sharedDirs BuilderCall.sharedDirValue
    (by intro call _ ha; cases call <;> first | rfl | cases ha)
  simp only [slots, lastValue, hpath, hcpus, hmemory, hdisks, hmac, hserial,
    hdirs, h.selectedBoot_eq hone₁ hone₂]

/-- Builder calls have slot semantics, and calls to different slots commute:
sequences with one boot family and the same calls to each slot build the
same. -/
theorem builder_slot_semantics (hasher : Text → Text → UInt64) (id : VmId) :
    (∀ calls : List BuilderCall,
      VmConfigBuilder.ofCalls hasher id calls = slots hasher id calls) ∧
    ∀ calls₁ calls₂ : List BuilderCall,
      OneFamily calls₁ → OneFamily calls₂ → SameSlotOrder calls₁ calls₂ →
        ∀ present : Path → Bool,
          (VmConfigBuilder.ofCalls hasher id calls₁).build present =
            (VmConfigBuilder.ofCalls hasher id calls₂).build present := by
  constructor
  · exact ofCalls_eq_slots hasher id
  · intro calls₁ calls₂ hone₁ hone₂ h present
    rw [ofCalls_eq_slots, ofCalls_eq_slots, h.slots_eq hone₁ hone₂]

theorem builder_slot_semantics_reversed :
    (VmConfigBuilder.ofCalls (fun _ _ => 0) "test".toList
      [.bootRelated (.cmdline "console=hvc0".toList),
        .bootRelated (.initrd (rootFile "initrd")),
        .bootRelated (.boot (rootFile "kernel")),
        .disk (rootFile "disk.img")]).build (fun _ => true) =
      (VmConfigBuilder.ofCalls (fun _ _ => 0) "test".toList
        [.disk (rootFile "disk.img"),
          .bootRelated (.boot (rootFile "kernel")), .natNetwork,
          .bootRelated (.initrd (rootFile "initrd")),
          .bootRelated (.cmdline "console=hvc0".toList)]).build
        (fun _ => true) :=
  (builder_slot_semantics _ _).2 _ _ ⟨.linux, by decide⟩ ⟨.linux, by decide⟩
    (by intro slot; cases slot <;> rfl) _

end Kasou
