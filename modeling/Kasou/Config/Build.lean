import Kasou.Config.Validate
import Kasou.MachineIdentifier.LoadOrCreate

/-!
# Building the framework's configuration

`build_vz_config_inner` with its device constructors, in source order.  What
the framework accepts and reports is a parameter.  The file system changes
only by what the build itself writes: the identifier's file, the EFI variable
store and the log file.  What exists at each point is passed from step to
step, since later steps look for files too.  A framework object is modelled by
what it was made from, and an `NSURL` by its path text.
-/

namespace Kasou

open Checks MachineIdentifier

/-- The parts of a `VZMACAddress` text: six groups of two hexadecimal digits
between colons. -/
def isMacText (s : Text) : Bool :=
  (s.splitOn ':').length == 6 &&
    (s.splitOn ':').all fun group =>
      group.length == 2 && group.all fun c => (hexDigit c).isSome

abbrev NSURL := Text

/-- What the host answers during a build.  An operation that writes can make
any paths exist; only the rename can make some stop to exist. -/
structure Host where
  /-- `Path::exists` before the build. -/
  present : Path → Bool
  read : Path → Except Text (List UInt8)
  createDirAll : Path → Option Text
  create : Path → Option Text
  writeAll : Path → List UInt8 → Option Text
  syncAll : Path → Option Text
  rename : Path → Path → Option Text
  /-- `Path::exists` after the scratch file has been renamed to a path. -/
  renamed : Path → Path → Bool
  /-- `Path::exists` after a variable store has been created at a URL. -/
  storeCreated : NSURL → (Path → Bool) → Path → Bool
  /-- `Path::exists` after the log file at a URL has been opened. -/
  logOpened : NSURL → (Path → Bool) → Path → Bool
  storeCreated_of_present : ∀ url present path, present path = true →
    storeCreated url present path = true
  logOpened_of_present : ∀ url present path, present path = true →
    logOpened url present path = true

/-- A host on which every operation succeeds and makes nothing exist that did
not. -/
def Host.quiet (present : Path → Bool) : Host where
  present
  read _ := .ok []
  createDirAll _ := none
  create _ := none
  writeAll _ _ := none
  syncAll _ := none
  rename _ _ := none
  renamed _ := present
  storeCreated _ present := present
  logOpened _ present := present
  storeCreated_of_present _ _ _ h := h
  logOpened_of_present _ _ _ h := h

/-! ## Framework objects -/

/-- A boot loader. -/
inductive VZBootLoader where
  | linux (kernelURL initialRamdiskURL : NSURL) (commandLine : Text)
  | efi (variableStore : Option NSURL)
  deriving DecidableEq

/-- A block device over a disk image, cached and fully synchronised. -/
structure VZStorageDevice where
  url : NSURL
  readOnly : Bool
  deriving DecidableEq

/-- A directory share. -/
structure VZDirectoryShare where
  tag : Text
  url : NSURL
  readOnly : Bool
  deriving DecidableEq

/-- The framework's configuration object. -/
structure VZVirtualMachineConfiguration (ι : Type) where
  cpuCount : UInt64
  memorySize : UInt64
  /-- The platform's identifier, when one was set. -/
  machineIdentifier : Option ι
  bootLoader : VZBootLoader
  storageDevices : List VZStorageDevice
  /-- The address of the network device, when one was set. -/
  macAddress : Option Text
  /-- The log file of the serial port, opened to append. -/
  serialPort : Option NSURL
  directorySharingDevices : List VZDirectoryShare
  deriving DecidableEq

/-- What the framework accepts and which errors it reports, with the
assumption on the texts that `VZMACAddress::initWithString` accepts. -/
structure VZFramework (ι : Type) where
  initMacAddress : Text → Bool
  createVariableStore : NSURL → Option NSError
  attachDiskImage : NSURL → Bool → Option NSError
  attachSerialFile : NSURL → Option NSError
  validate : VZVirtualMachineConfiguration ι → Option NSError
  initMacAddress_iff : ∀ s, initMacAddress s = true ↔ isMacText s = true

/-- Fail with the error for a reported failure, if there is one. -/
def check {ω : Type} (failure : Option ω) (error : ω → KasouError) :
    Except KasouError Unit :=
  match failure with
  | none => .ok ()
  | some e => .error (error e)

/-! ## The machine identifier -/

section Identifier

variable {ι : Type} (V : VZGenericMachineIdentifier ι) (host : Host)

/-- Make the directory that is to hold `path`, unless it is the empty path. -/
def createParent (path : Path) : Except KasouError Unit :=
  match path.parent with
  | none => .ok ()
  | some parent =>
      if parent.asOsStr.isEmpty then .ok ()
      else check (host.createDirAll parent) (mkdirError path)

/-- Load the identifier kept at `path`, or persist the platform's own.  The
result comes with what exists then. -/
def loadOrCreateMachineIdentifier (path : Path) (fresh : ι) :
    Except KasouError (ι × (Path → Bool)) :=
  if host.present path then
    match host.read path with
    | .error e => .error (readError path e)
    | .ok bytes => do
        let id ← restore V path bytes
        .ok (id, host.present)
  else do
    createParent host path
    check (host.create (tmp path)) (createError path)
    check (host.writeAll (tmp path) (V.dataRepresentation fresh))
      (writeError path)
    check (host.syncAll (tmp path)) (fsyncError path)
    check (host.rename (tmp path) path) (renameError path)
    .ok (fresh, host.renamed path)

/-- Set the identifier of a configuration that names a file for it. -/
def setMachineIdentifier (fresh : ι) :
    Option Path → Except KasouError (Option ι × (Path → Bool))
  | none => .ok (none, host.present)
  | some path => do
      let (id, present) ← loadOrCreateMachineIdentifier V host path fresh
      .ok (some id, present)

end Identifier

/-! ## Devices -/

/-- Convert a file system path to an `NSURL`. -/
def pathToNsurl (path : Path) : Except KasouError NSURL :=
  match path.toStr with
  | none =>
      .error (.invalidConfig
        ("path is not valid UTF-8: ".toList ++ path.display))
  | some url => .ok url

/-- The error for a failure that the framework reported about a file. -/
def frameworkError (label : String) (path : Path) (e : NSError) : KasouError :=
  .framework (label.toList ++ path.display ++ ": ".toList ++
    (nsErrorChain e).display)

variable {ι : Type} (F : VZFramework ι) (host : Host) (present : Path → Bool)

/-- The boot loader of a configuration, with what exists then. -/
def setupBootLoader :
    BootConfig → Except KasouError (VZBootLoader × (Path → Bool))
  | .linux kernel initrd cmdline => do
      ensure (present kernel)
        (.bootFilesNotFound ("kernel not found: ".toList ++ kernel.display))
      ensure (present initrd)
        (.bootFilesNotFound ("initrd not found: ".toList ++ initrd.display))
      let kernelUrl ← pathToNsurl kernel
      let initrdUrl ← pathToNsurl initrd
      .ok (.linux kernelUrl initrdUrl cmdline, present)
  | .efi none => .ok (.efi none, present)
  | .efi (some store) => do
      let url ← pathToNsurl store
      if present store then
        .ok (.efi (some url), present)
      else do
        check (F.createVariableStore url)
          (frameworkError "failed to create EFI variable store at " store)
        .ok (.efi (some url), host.storeCreated url present)

/-- The block device of a disk. -/
def createStorageDevice (disk : DiskConfig) :
    Except KasouError VZStorageDevice := do
  ensure (present disk.path) (.diskNotFound disk.path)
  let url ← pathToNsurl disk.path
  check (F.attachDiskImage url disk.readOnly)
    (frameworkError "failed to create disk attachment for " disk.path)
  .ok { url := url, readOnly := disk.readOnly }

/-- The network device, with the address that was set on it. -/
def createNetworkDevice (network : NetworkConfig) :
    Except KasouError (Option Text) :=
  match network.macAddress with
  | none => .ok none
  | some mac => do
      ensure (F.initMacAddress mac) (.invalidMac mac)
      .ok (some mac)

/-- The serial port, if one is configured, with what exists then. -/
def createSerialPort :
    Option SerialConfig → Except KasouError (Option NSURL × (Path → Bool))
  | none => .ok (none, present)
  | some serial => do
      let url ← pathToNsurl serial.logPath
      check (F.attachSerialFile url)
        (frameworkError "failed to create serial port attachment for "
          serial.logPath)
      .ok (some url, host.logOpened url present)

/-- The share of a host directory. -/
def createSharedDir (dir : SharedDirConfig) :
    Except KasouError VZDirectoryShare := do
  ensure (present dir.hostPath)
    (.invalidConfig ("shared directory does not exist: ".toList ++
      dir.hostPath.display))
  let url ← pathToNsurl dir.hostPath
  .ok { tag := dir.tag, url := url, readOnly := dir.readOnly }

/-- The error of the framework's own validation. -/
def validationError (e : NSError) : KasouError :=
  .framework ("VM configuration validation failed: ".toList ++
    (nsErrorChain e).display)

/-- Build the framework's configuration; the platform comes with the
identifier `fresh`. -/
def buildVzConfigInner (V : VZGenericMachineIdentifier ι) (host : Host)
    (fresh : ι) (config : VmConfig) :
    Except KasouError (VZVirtualMachineConfiguration ι) := do
  let (machineIdentifier, present) ←
    setMachineIdentifier V host fresh config.machineIdentifierPath
  let (bootLoader, present) ← setupBootLoader F host present config.boot
  let storageDevices ← config.disks.mapM (createStorageDevice F present)
  let macAddress ← createNetworkDevice F config.network
  let (serialPort, present) ← createSerialPort F host present config.serial
  let directorySharingDevices ←
    config.sharedDirs.mapM (createSharedDir present)
  let vzConfig : VZVirtualMachineConfiguration ι :=
    { cpuCount := config.cpus.toUInt64
      memorySize := config.memoryMib * 1024 * 1024
      machineIdentifier
      bootLoader
      storageDevices
      macAddress
      serialPort
      directorySharingDevices }
  check (F.validate vzConfig) validationError
  .ok vzConfig

end Kasou
