import Kasou.Config.Build
import Kasou.MachineIdentifier.Whole

/-!
# What validation covers of the build

`validate` repeats the checks that the build makes of the boot files and of
the disks.  The build's other checks are of the machine identifier's file, of
the encoding of paths, of shared directories and of the MAC address; a valid
configuration can still fail one of them.  The build also writes files before
it looks for others, and the rename of the identifier's scratch file can take
away one that validation has found.
-/

namespace Kasou

open Checks MachineIdentifier

/-- An error that the framework reported. -/
def KasouError.IsFramework : KasouError → Prop
  | .framework _ => True
  | _ => False

/-! ## What exists at each point of a build -/

/-- What exists once the identifier has been set. -/
def Host.afterIdentifier (host : Host) : Option Path → Path → Bool
  | none => host.present
  | some path =>
      if host.present path then host.present else host.renamed path

/-- The URL at which setting up the boot loader creates a variable store. -/
def BootConfig.createdStore (present : Path → Bool) :
    BootConfig → Option NSURL
  | .efi (some store) => if present store then none else store.toStr
  | .efi none | .linux _ _ _ => none

/-- What exists once the boot loader has been set up. -/
def Host.afterBootLoader (host : Host) (present : Path → Bool)
    (boot : BootConfig) : Path → Bool :=
  match boot.createdStore present with
  | some url => host.storeCreated url present
  | none => present

/-- What exists once the serial port has been created. -/
def Host.afterSerialPort (host : Host) (present : Path → Bool)
    (serial : Option SerialConfig) : Path → Bool :=
  match serial.bind fun serial => serial.logPath.toStr with
  | some url => host.logOpened url present
  | none => present

namespace VmConfig

/-- What exists when the build looks for the boot files. -/
def presentAtBoot (config : VmConfig) (host : Host) : Path → Bool :=
  host.afterIdentifier config.machineIdentifierPath

/-- What exists when the build looks for the disks. -/
def presentAtDisks (config : VmConfig) (host : Host) : Path → Bool :=
  host.afterBootLoader (config.presentAtBoot host) config.boot

/-- What exists when the build looks for the shared directories. -/
def presentAtShares (config : VmConfig) (host : Host) : Path → Bool :=
  host.afterSerialPort (config.presentAtDisks host) config.serial

end VmConfig

/-- Setting up the boot loader keeps what exists. -/
theorem Host.afterBootLoader_of_present (host : Host) {present : Path → Bool}
    (boot : BootConfig) {path : Path} (h : present path = true) :
    host.afterBootLoader present boot path = true := by
  rw [afterBootLoader]
  cases boot.createdStore present with
  | none => exact h
  | some url => exact host.storeCreated_of_present url present path h

theorem pathToNsurl_eq_ok_iff {path : Path} {url : NSURL} :
    pathToNsurl path = .ok url ↔ path.toStr = some url := by
  rw [pathToNsurl]
  cases path.toStr with
  | none => exact iff_of_false (by intro h; cases h) (by intro h; cases h)
  | some text => rw [Except.ok.injEq, Option.some.injEq]

section Present

variable {ι : Type} {V : VZGenericMachineIdentifier ι} {F : VZFramework ι}
  {host : Host} {present : Path → Bool} {fresh : ι}

theorem loadOrCreate_present {path : Path} {result : ι × (Path → Bool)}
    (h : loadOrCreateMachineIdentifier V host path fresh = .ok result) :
    result.2 = host.afterIdentifier (some path) := by
  rw [loadOrCreateMachineIdentifier] at h
  rw [Host.afterIdentifier]
  split at h
  next hfound =>
    rw [if_pos hfound]
    cases hread : host.read path with
    | error e =>
        rw [hread] at h
        cases h
    | ok bytes =>
        rw [hread] at h
        obtain ⟨id, -, hresult⟩ := bind_eq_ok_iff.mp h
        rw [← Except.ok.inj hresult]
  next hmissing =>
    rw [if_neg hmissing]
    simp only [seq_eq_ok_iff] at h
    obtain ⟨-, -, -, -, -, hresult⟩ := h
    rw [← Except.ok.inj hresult]

theorem setMachineIdentifier_present {path : Option Path}
    {result : Option ι × (Path → Bool)}
    (h : setMachineIdentifier V host fresh path = .ok result) :
    result.2 = host.afterIdentifier path := by
  cases path with
  | none => rw [← Except.ok.inj h, Host.afterIdentifier]
  | some path =>
      obtain ⟨loaded, hloaded, hresult⟩ := bind_eq_ok_iff.mp h
      rw [← loadOrCreate_present hloaded, ← Except.ok.inj hresult]

theorem setupBootLoader_present {boot : BootConfig}
    {result : VZBootLoader × (Path → Bool)}
    (h : setupBootLoader F host present boot = .ok result) :
    result.2 = host.afterBootLoader present boot := by
  match boot with
  | .linux kernel initrd cmdline =>
      obtain ⟨-, h⟩ := seq_eq_ok_iff.mp h
      obtain ⟨-, h⟩ := seq_eq_ok_iff.mp h
      obtain ⟨kernelUrl, -, h⟩ := bind_eq_ok_iff.mp h
      obtain ⟨initrdUrl, -, hresult⟩ := bind_eq_ok_iff.mp h
      rw [← Except.ok.inj hresult]
      rfl
  | .efi none =>
      rw [← Except.ok.inj h]
      rfl
  | .efi (some store) =>
      obtain ⟨url, hurl, hrest⟩ := bind_eq_ok_iff.mp h
      rw [Host.afterBootLoader, BootConfig.createdStore]
      split at hrest
      next hfound => rw [← Except.ok.inj hrest, if_pos hfound]
      next habsent =>
        obtain ⟨-, hresult⟩ := seq_eq_ok_iff.mp hrest
        rw [← Except.ok.inj hresult, if_neg habsent,
          pathToNsurl_eq_ok_iff.mp hurl]

theorem createSerialPort_present {serial : Option SerialConfig}
    {result : Option NSURL × (Path → Bool)}
    (h : createSerialPort F host present serial = .ok result) :
    result.2 = host.afterSerialPort present serial := by
  cases serial with
  | none =>
      rw [← Except.ok.inj h]
      rfl
  | some serial =>
      obtain ⟨url, hurl, hrest⟩ := bind_eq_ok_iff.mp h
      obtain ⟨-, hresult⟩ := seq_eq_ok_iff.mp hrest
      rw [← Except.ok.inj hresult, Host.afterSerialPort, Option.bind_some,
        pathToNsurl_eq_ok_iff.mp hurl]

end Present

/-! ## The build's own checks -/

/-- The path is valid UTF-8. -/
def Path.IsUtf8 (path : Path) : Prop := path.toStr.isSome = true

/-- The boot source's paths that are handed to the framework. -/
def BootConfig.urlPaths : BootConfig → List Path
  | .linux kernel initrd _ => [kernel, initrd]
  | .efi variableStore => variableStore.toList

/-- The boot source's files that have to exist. -/
def BootConfig.files : BootConfig → List Path
  | .linux kernel initrd _ => [kernel, initrd]
  | .efi _ => []

/-- All paths of a configuration that are handed to the framework. -/
def VmConfig.urlPaths (config : VmConfig) : List Path :=
  config.boot.urlPaths ++ config.disks.map DiskConfig.path ++
    (config.serial.map SerialConfig.logPath).toList ++
    config.sharedDirs.map SharedDirConfig.hostPath

/-- The identifier kept at `path` can be read and restored or, where there is
none, the host lets the platform's own be persisted. -/
def IdentifierAvailable {ι : Type} (V : VZGenericMachineIdentifier ι)
    (host : Host) (fresh : ι) (path : Path) : Prop :=
  if host.present path then
    ∃ bytes, host.read path = .ok bytes ∧
      (V.initWithDataRepresentation bytes).isSome = true
  else
    (∀ parent, path.parent = some parent → parent.asOsStr ≠ [] →
      host.createDirAll parent = none) ∧
    host.create (tmp path) = none ∧
    host.writeAll (tmp path) (V.dataRepresentation fresh) = none ∧
    host.syncAll (tmp path) = none ∧
    host.rename (tmp path) path = none

/-- Where the identifier's file is missing and gets written, the rename of its
scratch file leaves the boot files and the disks for the build to find. -/
def VmConfig.FilesKept (config : VmConfig) (host : Host) : Prop :=
  ∀ path, config.machineIdentifierPath = some path →
    host.present path = false →
      (∀ file ∈ config.boot.files, config.presentAtBoot host file = true) ∧
      ∀ disk ∈ config.disks, config.presentAtDisks host disk.path = true

/-- What the build checks of a configuration and `validate` does not. -/
structure BuildOnlyChecks {ι : Type} (V : VZGenericMachineIdentifier ι)
    (host : Host) (fresh : ι) (config : VmConfig) : Prop where
  identifier : ∀ path, config.machineIdentifierPath = some path →
    IdentifierAvailable V host fresh path
  filesKept : config.FilesKept host
  utf8 : ∀ path ∈ config.urlPaths, path.IsUtf8
  sharedDirs : ∀ dir ∈ config.sharedDirs,
    config.presentAtShares host dir.hostPath = true
  mac : ∀ mac, config.network.macAddress = some mac → isMacText mac = true

/-! ## Gates of the constructors -/

section Gates

variable (foreign : KasouError → Prop)

theorem gated_pathToNsurl (path : Path) :
    Gated foreign path.IsUtf8 (pathToNsurl path) := by
  rw [pathToNsurl, Path.IsUtf8]
  cases path.toStr with
  | none => exact gated_error (by simp) _
  | some url => exact gated_ok rfl url

theorem gated_check {ω : Type} (failure : Option ω) (error : ω → KasouError) :
    Gated foreign (failure = none) (check failure error) := by
  cases failure with
  | none => exact gated_ok rfl ()
  | some e => exact gated_error (by simp) _

theorem gated_check_framework {ω : Type} (failure : Option ω)
    {error : ω → KasouError} (herror : ∀ e, (error e).IsFramework) :
    Gated KasouError.IsFramework True (check failure error) := by
  apply gated_of_onlyErrors
  cases failure with
  | none => exact onlyErrors_ok _ ()
  | some e => exact onlyErrors_error (herror e)

theorem isFramework_validationError (e : NSError) :
    (validationError e).IsFramework := trivial

theorem gated_frameworkError (failure : Option NSError)
    (label : String) (path : Path) :
    Gated KasouError.IsFramework True
      (check failure (frameworkError label path)) :=
  gated_check_framework failure fun _ => trivial

variable {ι : Type} (V : VZGenericMachineIdentifier ι) (host : Host)

theorem gated_createParent (path : Path) :
    Gated foreign
      (∀ parent, path.parent = some parent → parent.asOsStr ≠ [] →
        host.createDirAll parent = none) (createParent host path) := by
  rw [createParent]
  cases path.parent with
  | none => exact gated_ok (by simp) ()
  | some parent =>
      by_cases hempty : parent.asOsStr = []
      · simp only [hempty, List.isEmpty_nil, if_true]
        exact gated_ok (by simp [hempty]) ()
      · simp only [List.isEmpty_iff, hempty, if_false]
        refine gated_congr ?_ (gated_check foreign _ _)
        simp [hempty]

theorem gated_restore (path : Path) (bytes : List UInt8) :
    Gated foreign ((V.initWithDataRepresentation bytes).isSome = true)
      (restore V path bytes) := by
  rw [restore]
  cases V.initWithDataRepresentation bytes with
  | none => exact gated_error (by simp) _
  | some id => exact gated_ok rfl id

theorem gated_loadOrCreate (path : Path) (fresh : ι) :
    Gated foreign (IdentifierAvailable V host fresh path)
      (loadOrCreateMachineIdentifier V host path fresh) := by
  rw [loadOrCreateMachineIdentifier, IdentifierAvailable]
  split
  · cases host.read path with
    | error e => exact gated_error (by simp) _
    | ok bytes =>
        refine gated_congr ?_ (gated_bind_ok
          (gated_restore foreign V path bytes) fun id => (id, host.present))
        simp
  · refine gated_bind (gated_createParent foreign host path) fun _ _ => ?_
    refine gated_bind (gated_check foreign _ _) fun _ _ => ?_
    refine gated_bind (gated_check foreign _ _) fun _ _ => ?_
    refine gated_bind (gated_check foreign _ _) fun _ _ => ?_
    exact gated_bind_ok (gated_check foreign _ _) fun _ =>
      (fresh, host.renamed path)

theorem gated_setMachineIdentifier (fresh : ι) (config : VmConfig) :
    Gated foreign
      (∀ path, config.machineIdentifierPath = some path →
        IdentifierAvailable V host fresh path)
      (setMachineIdentifier V host fresh config.machineIdentifierPath) := by
  cases config.machineIdentifierPath with
  | none => exact gated_ok (by simp) _
  | some path =>
      refine gated_congr ?_
        (gated_bind_ok (gated_loadOrCreate foreign V host path fresh)
          fun loaded => (some loaded.1, loaded.2))
      simp

/-! ### Devices -/

variable (F : VZFramework ι) (present : Path → Bool)

/-- The boot loader's own checks: the files of a Linux boot, and the encoding
of all paths. -/
def BootConfig.LoaderChecks : BootConfig → Prop
  | .linux kernel initrd _ =>
      present kernel = true ∧ present initrd = true ∧
        kernel.IsUtf8 ∧ initrd.IsUtf8
  | .efi variableStore => ∀ store ∈ variableStore, store.IsUtf8

theorem gated_setupBootLoader (boot : BootConfig) :
    Gated KasouError.IsFramework (boot.LoaderChecks present)
      (setupBootLoader F host present boot) := by
  match boot with
  | .linux kernel initrd cmdline =>
      refine gated_bind (gated_ensure _ _ _) fun _ _ => ?_
      refine gated_bind (gated_ensure _ _ _) fun _ _ => ?_
      refine gated_bind (gated_pathToNsurl _ kernel) fun kernelUrl _ => ?_
      exact gated_bind_ok (gated_pathToNsurl _ initrd) _
  | .efi none => exact gated_ok (by simp [BootConfig.LoaderChecks]) _
  | .efi (some store) =>
      refine gated_congr ?_ (gated_bind (q := True)
        (gated_pathToNsurl _ store) fun url _ => ?_)
      · simp [BootConfig.LoaderChecks]
      · split
        · exact gated_ok trivial _
        · exact gated_bind_ok (gated_frameworkError _ _ store) _

theorem gated_createStorageDevice (disk : DiskConfig) :
    Gated KasouError.IsFramework
      (present disk.path = true ∧ disk.path.IsUtf8)
      (createStorageDevice F present disk) := by
  refine gated_bind (gated_ensure _ _ _) fun _ _ => ?_
  refine gated_congr (iff_of_eq (and_true _))
    (gated_bind (gated_pathToNsurl _ disk.path) fun url _ => ?_)
  exact gated_bind_ok (gated_frameworkError _ _ disk.path) _

theorem gated_createNetworkDevice (network : NetworkConfig) :
    Gated KasouError.IsFramework
      (∀ mac, network.macAddress = some mac → isMacText mac = true)
      (createNetworkDevice F network) := by
  rw [createNetworkDevice]
  cases network.macAddress with
  | none => exact gated_ok (by simp) none
  | some mac =>
      refine gated_congr ?_ (gated_bind_ok (gated_ensure _ _ _) _)
      simp [F.initMacAddress_iff]

theorem gated_createSerialPort (serial : Option SerialConfig) :
    Gated KasouError.IsFramework
      (∀ path ∈ (serial.map SerialConfig.logPath).toList, path.IsUtf8)
      (createSerialPort F host present serial) := by
  cases serial with
  | none => exact gated_ok (by simp) _
  | some serial =>
      refine gated_congr ?_ (gated_bind (gated_pathToNsurl _ serial.logPath)
        fun url _ => gated_bind_ok (gated_frameworkError _ _ serial.logPath) _)
      simp

theorem gated_createSharedDir (dir : SharedDirConfig) :
    Gated foreign (present dir.hostPath = true ∧ dir.hostPath.IsUtf8)
      (createSharedDir present dir) := by
  refine gated_bind (gated_ensure _ _ _) fun _ _ => ?_
  exact gated_bind_ok (gated_pathToNsurl _ dir.hostPath) _

/-- All own checks of a build. -/
def BuildChecks (fresh : ι) (config : VmConfig) : Prop :=
  (∀ path, config.machineIdentifierPath = some path →
    IdentifierAvailable V host fresh path) ∧
  config.boot.LoaderChecks (config.presentAtBoot host) ∧
  (∀ disk ∈ config.disks, config.presentAtDisks host disk.path = true ∧
    disk.path.IsUtf8) ∧
  (∀ mac, config.network.macAddress = some mac → isMacText mac = true) ∧
  (∀ path ∈ (config.serial.map SerialConfig.logPath).toList, path.IsUtf8) ∧
  ∀ dir ∈ config.sharedDirs,
    config.presentAtShares host dir.hostPath = true ∧ dir.hostPath.IsUtf8

/-- A build's own checks leave only errors of the framework, and a build that
succeeds has passed them. -/
theorem gated_buildVzConfigInner (fresh : ι) (config : VmConfig) :
    Gated KasouError.IsFramework (BuildChecks V host fresh config)
      (buildVzConfigInner F V host fresh config) := by
  refine gated_bind (gated_setMachineIdentifier _ V host fresh config) ?_
  rintro ⟨machineIdentifier, present⟩ hidentifier
  obtain rfl : present = config.presentAtBoot host :=
    setMachineIdentifier_present hidentifier
  refine gated_bind (gated_setupBootLoader host F _ _) ?_
  rintro ⟨bootLoader, present⟩ hloader
  obtain rfl : present = config.presentAtDisks host :=
    setupBootLoader_present hloader
  refine gated_bind (gated_mapM (gated_createStorageDevice F _) _)
    fun storageDevices _ => ?_
  refine gated_bind (gated_createNetworkDevice F _) fun macAddress _ => ?_
  refine gated_bind (gated_createSerialPort host F _ _) ?_
  rintro ⟨serialPort, present⟩ hserial
  obtain rfl : present = config.presentAtShares host :=
    createSerialPort_present hserial
  refine gated_congr (iff_of_eq (and_true _))
    (gated_bind (gated_mapM (gated_createSharedDir _ _) _) fun shares _ => ?_)
  exact gated_bind_ok (gated_check_framework _ isFramework_validationError) _

end Gates

/-! ## A framework that reports nothing -/

/-- The framework that reports no error. -/
def VZFramework.silent (ι : Type) : VZFramework ι where
  initMacAddress := isMacText
  createVariableStore _ := none
  attachDiskImage _ _ := none
  attachSerialFile _ := none
  validate _ := none
  initMacAddress_iff _ := Iff.rfl

section Silent

variable {ι : Type} (V : VZGenericMachineIdentifier ι) (host : Host)
  (present : Path → Bool)

/-- No error is one of the framework. -/
def NoFrameworkError {α : Type} (x : Except KasouError α) : Prop :=
  OnlyErrors (fun e => ¬e.IsFramework) x

theorem noFrameworkError_pathToNsurl (path : Path) :
    NoFrameworkError (pathToNsurl path) := by
  rw [pathToNsurl]
  cases path.toStr with
  | none => exact onlyErrors_error not_false
  | some url => exact onlyErrors_ok _ url

theorem noFrameworkError_check {ω : Type} (failure : Option ω)
    {error : ω → KasouError} (herror : ∀ e, ¬(error e).IsFramework) :
    NoFrameworkError (check failure error) := by
  cases failure with
  | none => exact onlyErrors_ok _ ()
  | some e => exact onlyErrors_error (herror e)

theorem noFrameworkError_createParent (path : Path) :
    NoFrameworkError (createParent host path) := by
  rw [createParent]
  cases path.parent with
  | none => exact onlyErrors_ok _ ()
  | some parent =>
      dsimp only
      split
      · exact onlyErrors_ok _ ()
      · exact noFrameworkError_check _ fun _ => not_false

theorem noFrameworkError_loadOrCreate (path : Path) (fresh : ι) :
    NoFrameworkError (loadOrCreateMachineIdentifier V host path fresh) := by
  rw [loadOrCreateMachineIdentifier]
  split
  · cases host.read path with
    | error e => exact onlyErrors_error not_false
    | ok bytes =>
        refine onlyErrors_bind ?_ fun id => onlyErrors_ok _ _
        rw [restore]
        cases V.initWithDataRepresentation bytes with
        | none => exact onlyErrors_error not_false
        | some id => exact onlyErrors_ok _ id
  · refine onlyErrors_bind (noFrameworkError_createParent host path) fun _ => ?_
    refine onlyErrors_bind (noFrameworkError_check _ fun _ => not_false)
      fun _ => ?_
    refine onlyErrors_bind (noFrameworkError_check _ fun _ => not_false)
      fun _ => ?_
    refine onlyErrors_bind (noFrameworkError_check _ fun _ => not_false)
      fun _ => ?_
    exact onlyErrors_bind (noFrameworkError_check _ fun _ => not_false)
      fun _ => onlyErrors_ok _ _

theorem noFrameworkError_setMachineIdentifier (fresh : ι)
    (path : Option Path) :
    NoFrameworkError (setMachineIdentifier V host fresh path) := by
  cases path with
  | none => exact onlyErrors_ok _ _
  | some path =>
      exact onlyErrors_bind (noFrameworkError_loadOrCreate V host path fresh)
        fun loaded => onlyErrors_ok _ _

theorem noFrameworkError_setupBootLoader (boot : BootConfig) :
    NoFrameworkError
      (setupBootLoader (VZFramework.silent ι) host present boot) := by
  match boot with
  | .linux kernel initrd cmdline =>
      refine onlyErrors_bind (onlyErrors_ensure not_false) fun _ => ?_
      refine onlyErrors_bind (onlyErrors_ensure not_false) fun _ => ?_
      refine onlyErrors_bind (noFrameworkError_pathToNsurl kernel) fun _ => ?_
      exact onlyErrors_bind (noFrameworkError_pathToNsurl initrd) fun _ =>
        onlyErrors_ok _ _
  | .efi none => exact onlyErrors_ok _ _
  | .efi (some store) =>
      refine onlyErrors_bind (noFrameworkError_pathToNsurl store) fun _ => ?_
      split
      · exact onlyErrors_ok _ _
      · exact onlyErrors_ok _ _

theorem noFrameworkError_createStorageDevice (disk : DiskConfig) :
    NoFrameworkError
      (createStorageDevice (VZFramework.silent ι) present disk) := by
  refine onlyErrors_bind (onlyErrors_ensure not_false) fun _ => ?_
  exact onlyErrors_bind (noFrameworkError_pathToNsurl disk.path) fun _ =>
    onlyErrors_ok _ _

theorem noFrameworkError_createNetworkDevice (network : NetworkConfig) :
    NoFrameworkError (createNetworkDevice (VZFramework.silent ι) network) := by
  rw [createNetworkDevice]
  cases network.macAddress with
  | none => exact onlyErrors_ok _ none
  | some mac =>
      exact onlyErrors_bind (onlyErrors_ensure not_false) fun _ =>
        onlyErrors_ok _ (some mac)

theorem noFrameworkError_createSerialPort (serial : Option SerialConfig) :
    NoFrameworkError
      (createSerialPort (VZFramework.silent ι) host present serial) := by
  cases serial with
  | none => exact onlyErrors_ok _ _
  | some serial =>
      exact onlyErrors_bind (noFrameworkError_pathToNsurl serial.logPath)
        fun _ => onlyErrors_ok _ _

theorem noFrameworkError_createSharedDir (dir : SharedDirConfig) :
    NoFrameworkError (createSharedDir present dir) := by
  refine onlyErrors_bind (onlyErrors_ensure not_false) fun _ => ?_
  exact onlyErrors_bind (noFrameworkError_pathToNsurl dir.hostPath) fun _ =>
    onlyErrors_ok _ _

theorem noFrameworkError_buildVzConfigInner (fresh : ι) (config : VmConfig) :
    NoFrameworkError
      (buildVzConfigInner (VZFramework.silent ι) V host fresh config) := by
  refine onlyErrors_bind (noFrameworkError_setMachineIdentifier V host fresh _)
    fun _ => ?_
  refine onlyErrors_bind (noFrameworkError_setupBootLoader _ _ _) fun _ => ?_
  refine onlyErrors_bind
    (onlyErrors_mapM (noFrameworkError_createStorageDevice _) _) fun _ => ?_
  refine onlyErrors_bind (noFrameworkError_createNetworkDevice _) fun _ => ?_
  refine onlyErrors_bind (noFrameworkError_createSerialPort _ _ _) fun _ => ?_
  refine onlyErrors_bind
    (onlyErrors_mapM (noFrameworkError_createSharedDir _) _) fun _ => ?_
  exact onlyErrors_ok _ _

end Silent

/-! ## Coverage -/

/-- With its files there, a boot source's checks are of the encoding. -/
theorem BootConfig.loaderChecks_iff {present : Path → Bool}
    {boot : BootConfig} :
    boot.LoaderChecks present ↔ (∀ file ∈ boot.files, present file = true) ∧
      ∀ path ∈ boot.urlPaths, path.IsUtf8 := by
  match boot with
  | .linux kernel initrd _ => simp [LoaderChecks, urlPaths, files, and_assoc]
  | .efi none => simp [LoaderChecks, urlPaths, files]
  | .efi (some store) => simp [LoaderChecks, urlPaths, files]

theorem BootConfig.FilesPresent.present_of_mem {present : Path → Bool}
    {boot : BootConfig} (h : boot.FilesPresent present) :
    ∀ file ∈ boot.files, present file = true := by
  cases boot with
  | efi store => exact List.forall_mem_nil _
  | linux kernel initrd cmdline =>
      simpa [files, BootConfig.FilesPresent] using h

/-- The files of a valid configuration are there when the build looks for
them, unless the identifier's file has been written first. -/
theorem filesKept_iff {host : Host} {config : VmConfig}
    (hvalid : config.validate host.present = .ok ()) :
    ((∀ file ∈ config.boot.files, config.presentAtBoot host file = true) ∧
      ∀ disk ∈ config.disks, config.presentAtDisks host disk.path = true) ↔
      config.FilesKept host := by
  obtain ⟨-, -, -, hboot, hdisks⟩ := VmConfig.validate_eq_ok_iff.mp hvalid
  have hfiles := hboot.present_of_mem
  constructor
  · intro h path _ _
    exact h
  · intro hkept
    have hsame : config.presentAtBoot host = host.present ∨
        ∃ path, config.machineIdentifierPath = some path ∧
          host.present path = false := by
      rw [VmConfig.presentAtBoot]
      cases hpath : config.machineIdentifierPath with
      | none => exact Or.inl rfl
      | some path =>
          cases hpresent : host.present path with
          | true => exact Or.inl (if_pos hpresent)
          | false => exact Or.inr ⟨path, rfl, hpresent⟩
    rcases hsame with hsame | ⟨path, hpath, hmissing⟩
    · rw [VmConfig.presentAtDisks, hsame]
      exact ⟨hfiles, fun disk hdisk =>
        host.afterBootLoader_of_present _ (hdisks disk hdisk)⟩
    · exact hkept path hpath hmissing

theorem buildChecks_iff {ι : Type} {V : VZGenericMachineIdentifier ι}
    {host : Host} {fresh : ι} {config : VmConfig}
    (hvalid : config.validate host.present = .ok ()) :
    BuildChecks V host fresh config ↔ BuildOnlyChecks V host fresh config := by
  have hutf8 : (∀ path ∈ config.urlPaths, path.IsUtf8) ↔
      (∀ path ∈ config.boot.urlPaths, path.IsUtf8) ∧
      (∀ disk ∈ config.disks, disk.path.IsUtf8) ∧
      (∀ path ∈ (config.serial.map SerialConfig.logPath).toList,
        path.IsUtf8) ∧
      ∀ dir ∈ config.sharedDirs, dir.hostPath.IsUtf8 := by
    simp only [VmConfig.urlPaths, List.forall_mem_append, List.forall_mem_map,
      and_assoc]
  rw [BuildChecks, BootConfig.loaderChecks_iff]
  constructor
  · rintro ⟨hid, ⟨hfiles, hboot⟩, hdisk, hmac, hserial, hdir⟩
    exact
      { identifier := hid
        filesKept := (filesKept_iff hvalid).mp
          ⟨hfiles, fun disk h => (hdisk disk h).1⟩
        utf8 := hutf8.mpr ⟨hboot, fun disk h => (hdisk disk h).2, hserial,
          fun dir h => (hdir dir h).2⟩
        sharedDirs := fun dir h => (hdir dir h).1
        mac := hmac }
  · rintro ⟨hid, hkept, hpaths, hdirs, hmac⟩
    obtain ⟨hfiles, hdisks⟩ := (filesKept_iff hvalid).mpr hkept
    obtain ⟨hboot, hdisk, hserial, hdir⟩ := hutf8.mp hpaths
    exact ⟨hid, ⟨hfiles, hboot⟩,
      fun disk h => ⟨hdisks disk h, hdisk disk h⟩, hmac, hserial,
      fun dir h => ⟨hdirs dir h, hdir dir h⟩⟩

/-- A valid configuration whose build can only fail with errors of the
framework, whatever the framework reports, is one that passes the build's
further checks. -/
theorem build_rejections_covered_iff {ι : Type}
    (V : VZGenericMachineIdentifier ι) (host : Host) (fresh : ι)
    (config : VmConfig) (hvalid : config.validate host.present = .ok ()) :
    (∀ (F : VZFramework ι) (e : KasouError),
      buildVzConfigInner F V host fresh config = .error e → e.IsFramework) ↔
      BuildOnlyChecks V host fresh config := by
  rw [← buildChecks_iff hvalid]
  constructor
  · intro hcovered
    cases hbuild : buildVzConfigInner (.silent ι) V host fresh config with
    | error e =>
        exact absurd (hcovered (.silent ι) e hbuild)
          (noFrameworkError_buildVzConfigInner V host fresh config e hbuild)
    | ok vzConfig =>
        exact (gated_buildVzConfigInner V host (.silent ι) fresh config).2
          vzConfig hbuild
  · intro hchecks F
    exact (gated_buildVzConfigInner V host F fresh config).1 hchecks

/-- A host on which only the directory `/share` is missing. -/
def hostWithoutShare : Host := .quiet fun path => path != rootFile "share"

/-- The smoke configuration with a shared directory. -/
def sharingConfig : VmConfig :=
  { smokeConfig with
    sharedDirs :=
      [{ tag := "share0".toList
         hostPath := rootFile "share"
         readOnly := true }] }

theorem build_rejections_covered_iff_sharingConfig :
    (∀ (F : VZFramework UInt8) (e : KasouError),
      buildVzConfigInner F byteIdentifier hostWithoutShare 0
        sharingConfig = .error e → e.IsFramework) ↔
      BuildOnlyChecks byteIdentifier hostWithoutShare 0 sharingConfig :=
  build_rejections_covered_iff _ _ _ _ rfl

/-- The shared directory is missing: the configuration is valid, and the build
rejects it. -/
theorem sharingConfig_not_covered :
    sharingConfig.validate hostWithoutShare.present = .ok () ∧
      buildVzConfigInner (.silent UInt8) byteIdentifier hostWithoutShare 0
        sharingConfig =
        .error (.invalidConfig
          "shared directory does not exist: /share".toList) := by
  constructor
  · rfl
  · rfl

end Kasou
