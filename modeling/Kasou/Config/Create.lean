import Kasou.Builder.Slots
import Kasou.Config.Coverage
import Kasou.Config.Memory
import Kasou.Vm.Handle

/-!
# Creating a machine

`VmHandle::create` validates a configuration, builds the framework's
configuration from it and makes a handle.  The file system may answer
differently at each of these times, and before them when the configuration
itself was built from setter calls; what the build writes changes it further.
A machine is created exactly when all checks pass, and the framework is then
given what was configured, device by device.
-/

namespace Kasou

open Checks MachineIdentifier

variable {ι : Type}

/-- A machine as it was created: its handle, and the configuration that the
framework was given. -/
structure Machine (ι : Type) where
  handle : VmHandle
  vzConfig : VZVirtualMachineConfiguration ι

section Definitions

variable (F : VZFramework ι) (V : VZGenericMachineIdentifier ι)

/-- Build the framework's configuration; an exception that the framework
throws meanwhile becomes an error. -/
def buildVzConfig (exception : Option Text) (host : Host) (fresh : ι)
    (config : VmConfig) :
    Except KasouError (VZVirtualMachineConfiguration ι) :=
  match exception with
  | none => buildVzConfigInner F V host fresh config
  | some desc =>
      .error (.framework
        ("Objective-C exception during VZ configuration: ".toList ++ desc))

/-- `VmHandle::create`.  The host answers as `present` says while the
configuration is validated. -/
def Machine.create (exception : Option Text) (present : Path → Bool)
    (host : Host) (fresh : ι) (config : VmConfig) :
    Except KasouError (Machine ι) := do
  config.validate present
  let vzConfig ← buildVzConfig F V exception host fresh config
  .ok { handle := .create config, vzConfig }

end Definitions

/-! ## What the framework is given -/

/-- The boot loader boots from what is configured. -/
def BootConfig.LoadedBy : BootConfig → VZBootLoader → Prop
  | .linux kernel initrd cmdline, .linux kernelURL ramdiskURL commandLine =>
      kernel.toStr = some kernelURL ∧ initrd.toStr = some ramdiskURL ∧
        commandLine = cmdline
  | .efi variableStore, .efi url =>
      variableStore.map Path.toStr = url.map some
  | _, _ => False

/-- The device is backed by the disk. -/
structure DiskConfig.Backs (disk : DiskConfig) (device : VZStorageDevice) :
    Prop where
  url : disk.path.toStr = some device.url
  readOnly : device.readOnly = disk.readOnly

/-- The share is that of the directory. -/
structure SharedDirConfig.SharedBy (dir : SharedDirConfig)
    (share : VZDirectoryShare) : Prop where
  tag : share.tag = dir.tag
  url : dir.hostPath.toStr = some share.url
  readOnly : share.readOnly = dir.readOnly

/-- The framework is given what is configured: devices of each kind in the
order in which they are configured, and memory in bytes, as far as 64 bits
hold them. -/
structure VmConfig.Describes (config : VmConfig)
    (vz : VZVirtualMachineConfiguration ι) : Prop where
  cpus : vz.cpuCount.toNat = config.cpus.toNat
  memory : vz.memorySize.toNat =
    config.memoryMib.toNat * 1024 * 1024 % UInt64.size
  boot : config.boot.LoadedBy vz.bootLoader
  disks : List.Forall₂ DiskConfig.Backs config.disks vz.storageDevices
  mac : vz.macAddress = config.network.macAddress
  serial : config.serial.map (fun serial => serial.logPath.toStr) =
    vz.serialPort.map some
  sharedDirs : List.Forall₂ SharedDirConfig.SharedBy config.sharedDirs
    vz.directorySharingDevices

/-- All files that the framework is to open or share are there when the build
looks for them. -/
structure VmConfig.FilesThere (host : Host) (config : VmConfig) : Prop where
  boot : ∀ file ∈ config.boot.files, config.presentAtBoot host file = true
  disks : ∀ disk ∈ config.disks, config.presentAtDisks host disk.path = true
  sharedDirs : ∀ dir ∈ config.sharedDirs,
    config.presentAtShares host dir.hostPath = true

/-- The framework accepts what it is given. -/
structure VZFramework.Accepts (F : VZFramework ι) (host : Host)
    (config : VmConfig) (vz : VZVirtualMachineConfiguration ι) : Prop where
  variableStore : ∀ url,
    config.boot.createdStore (config.presentAtBoot host) = some url →
      F.createVariableStore url = none
  disks : ∀ device ∈ vz.storageDevices,
    F.attachDiskImage device.url device.readOnly = none
  mac : ∀ mac ∈ vz.macAddress, isMacText mac = true
  serial : ∀ url ∈ vz.serialPort, F.attachSerialFile url = none
  whole : F.validate vz = none

/-! ## The devices, one by one -/

theorem check_eq_ok_iff {ω : Type} {failure : Option ω}
    {error : ω → KasouError} :
    check failure error = .ok () ↔ failure = none := by
  cases failure with
  | none => exact iff_of_true rfl rfl
  | some e =>
      refine iff_of_false ?_ (Option.some_ne_none e)
      intro h
      cases h

section Devices

variable {F : VZFramework ι} {host : Host} {present : Path → Bool}

theorem setupBootLoader_eq_ok_iff {boot : BootConfig}
    {loader : VZBootLoader} :
    setupBootLoader F host present boot =
        .ok (loader, host.afterBootLoader present boot) ↔
      boot.LoadedBy loader ∧ (∀ file ∈ boot.files, present file = true) ∧
      ∀ url, boot.createdStore present = some url →
        F.createVariableStore url = none := by
  match boot with
  | .linux kernel initrd cmdline =>
      rw [setupBootLoader, seq_eq_ok_iff, ensure_eq_ok_iff, seq_eq_ok_iff,
        ensure_eq_ok_iff, bind_eq_ok_iff]
      simp only [BootConfig.files, List.forall_mem_cons, List.not_mem_nil,
        false_implies, implies_true, and_true]
      constructor
      · rintro ⟨hkernel, hinitrd, kernelUrl, hkernelUrl, hrest⟩
        obtain ⟨initrdUrl, hinitrdUrl, hloader⟩ := bind_eq_ok_iff.mp hrest
        obtain ⟨rfl, -⟩ := Prod.mk.inj (Except.ok.inj hloader)
        refine ⟨⟨pathToNsurl_eq_ok_iff.mp hkernelUrl,
          pathToNsurl_eq_ok_iff.mp hinitrdUrl, rfl⟩, ⟨hkernel, hinitrd⟩, ?_⟩
        intro url hcreated
        cases hcreated
      · rintro ⟨hloaded, ⟨hkernel, hinitrd⟩, -⟩
        cases loader with
        | efi url => exact hloaded.elim
        | linux kernelUrl initrdUrl commandLine =>
            obtain ⟨hkernelUrl, hinitrdUrl, rfl⟩ := hloaded
            exact ⟨hkernel, hinitrd, kernelUrl,
              pathToNsurl_eq_ok_iff.mpr hkernelUrl, bind_eq_ok_iff.mpr
                ⟨initrdUrl, pathToNsurl_eq_ok_iff.mpr hinitrdUrl, rfl⟩⟩
  | .efi none =>
      rw [setupBootLoader, Except.ok.injEq, Prod.mk.injEq]
      constructor
      · rintro ⟨rfl, -⟩
        refine ⟨rfl, List.forall_mem_nil _, ?_⟩
        intro url hcreated
        cases hcreated
      · rintro ⟨hloaded, -, -⟩
        cases loader with
        | linux kernelUrl initrdUrl commandLine => exact hloaded.elim
        | efi url =>
            have hnone : url.map some = none := hloaded.symm
            rw [Option.map_eq_none_iff.mp hnone]
            exact ⟨rfl, rfl⟩
  | .efi (some store) =>
      rw [setupBootLoader, bind_eq_ok_iff]
      constructor
      · rintro ⟨url, hurl, hrest⟩
        have hstore := pathToNsurl_eq_ok_iff.mp hurl
        rw [BootConfig.createdStore, hstore]
        split at hrest
        next hfound =>
          obtain ⟨rfl, -⟩ := Prod.mk.inj (Except.ok.inj hrest)
          rw [if_pos hfound]
          refine ⟨congrArg some hstore, List.forall_mem_nil _, ?_⟩
          intro url hcreated
          cases hcreated
        next habsent =>
          obtain ⟨hcheck, hloader⟩ := seq_eq_ok_iff.mp hrest
          obtain ⟨rfl, -⟩ := Prod.mk.inj (Except.ok.inj hloader)
          rw [if_neg habsent]
          refine ⟨congrArg some hstore, List.forall_mem_nil _, ?_⟩
          rintro _ ⟨⟩
          exact check_eq_ok_iff.mp hcheck
      · rintro ⟨hloaded, -, hcreate⟩
        cases loader with
        | linux kernelUrl initrdUrl commandLine => exact hloaded.elim
        | efi url =>
            have hmap : some store.toStr = url.map some := hloaded
            obtain ⟨text, rfl, htext⟩ := Option.map_eq_some_iff.mp hmap.symm
            refine ⟨text, pathToNsurl_eq_ok_iff.mpr htext.symm, ?_⟩
            rw [BootConfig.createdStore, ← htext] at hcreate
            rw [Host.afterBootLoader, BootConfig.createdStore, ← htext]
            split
            next hfound => rfl
            next habsent =>
              rw [if_neg habsent] at hcreate
              exact seq_eq_ok_iff.mpr
                ⟨check_eq_ok_iff.mpr (hcreate text rfl), rfl⟩

theorem createStorageDevice_eq_ok_iff {disk : DiskConfig}
    {device : VZStorageDevice} :
    createStorageDevice F present disk = .ok device ↔
      disk.Backs device ∧ present disk.path = true ∧
        F.attachDiskImage device.url device.readOnly = none := by
  rw [createStorageDevice, seq_eq_ok_iff, ensure_eq_ok_iff, bind_eq_ok_iff]
  constructor
  · rintro ⟨hpresent, url, hurl, hrest⟩
    obtain ⟨hattach, hdevice⟩ := seq_eq_ok_iff.mp hrest
    obtain rfl := Except.ok.inj hdevice
    exact ⟨⟨pathToNsurl_eq_ok_iff.mp hurl, rfl⟩, hpresent,
      check_eq_ok_iff.mp hattach⟩
  · rintro ⟨⟨hurl, hreadOnly⟩, hpresent, hattach⟩
    obtain ⟨url, readOnly⟩ := device
    obtain rfl : readOnly = disk.readOnly := hreadOnly
    exact ⟨hpresent, url, pathToNsurl_eq_ok_iff.mpr hurl,
      seq_eq_ok_iff.mpr ⟨check_eq_ok_iff.mpr hattach, rfl⟩⟩

theorem createNetworkDevice_eq_ok_iff {network : NetworkConfig}
    {mac : Option Text} :
    createNetworkDevice F network = .ok mac ↔
      mac = network.macAddress ∧ ∀ text ∈ mac, isMacText text = true := by
  rw [createNetworkDevice]
  cases network.macAddress with
  | none =>
      rw [Except.ok.injEq]
      constructor
      · rintro rfl
        exact ⟨rfl, by simp⟩
      · rintro ⟨rfl, -⟩
        rfl
  | some text =>
      rw [seq_eq_ok_iff, ensure_eq_ok_iff, F.initMacAddress_iff,
        Except.ok.injEq]
      constructor
      · rintro ⟨hmac, rfl⟩
        exact ⟨rfl, by simpa using hmac⟩
      · rintro ⟨rfl, hmac⟩
        exact ⟨hmac text rfl, rfl⟩

theorem createSerialPort_eq_ok_iff {serial : Option SerialConfig}
    {port : Option NSURL} :
    createSerialPort F host present serial =
        .ok (port, host.afterSerialPort present serial) ↔
      serial.map (fun serial => serial.logPath.toStr) = port.map some ∧
        ∀ url ∈ port, F.attachSerialFile url = none := by
  cases serial with
  | none =>
      rw [createSerialPort, Except.ok.injEq, Prod.mk.injEq]
      constructor
      · rintro ⟨rfl, -⟩
        exact ⟨rfl, by simp⟩
      · rintro ⟨hport, -⟩
        exact ⟨(Option.map_eq_none_iff.mp hport.symm).symm, rfl⟩
  | some serial =>
      rw [createSerialPort, bind_eq_ok_iff]
      constructor
      · rintro ⟨url, hurl, hrest⟩
        obtain ⟨hattach, hport⟩ := seq_eq_ok_iff.mp hrest
        obtain ⟨rfl, -⟩ := Prod.mk.inj (Except.ok.inj hport)
        refine ⟨congrArg some (pathToNsurl_eq_ok_iff.mp hurl), ?_⟩
        simpa using check_eq_ok_iff.mp hattach
      · rintro ⟨hport, hattach⟩
        have hmap : some serial.logPath.toStr = port.map some := hport
        obtain ⟨url, rfl, hurl⟩ := Option.map_eq_some_iff.mp hmap.symm
        refine ⟨url, pathToNsurl_eq_ok_iff.mpr hurl.symm,
          seq_eq_ok_iff.mpr ⟨check_eq_ok_iff.mpr (hattach url rfl), ?_⟩⟩
        rw [Host.afterSerialPort, Option.bind_some, ← hurl]

theorem createSharedDir_eq_ok_iff {dir : SharedDirConfig}
    {share : VZDirectoryShare} :
    createSharedDir present dir = .ok share ↔
      dir.SharedBy share ∧ present dir.hostPath = true := by
  rw [createSharedDir, seq_eq_ok_iff, ensure_eq_ok_iff, bind_eq_ok_iff]
  constructor
  · rintro ⟨hpresent, url, hurl, hshare⟩
    obtain rfl := Except.ok.inj hshare
    exact ⟨⟨rfl, pathToNsurl_eq_ok_iff.mp hurl, rfl⟩, hpresent⟩
  · rintro ⟨⟨htag, hurl, hreadOnly⟩, hpresent⟩
    obtain ⟨tag, url, readOnly⟩ := share
    obtain rfl : tag = dir.tag := htag
    obtain rfl : readOnly = dir.readOnly := hreadOnly
    exact ⟨hpresent, url, pathToNsurl_eq_ok_iff.mpr hurl, rfl⟩

theorem mapM_createStorageDevice_eq_ok_iff {disks : List DiskConfig}
    {devices : List VZStorageDevice} :
    disks.mapM (createStorageDevice F present) = .ok devices ↔
      List.Forall₂ DiskConfig.Backs disks devices ∧
        (∀ disk ∈ disks, present disk.path = true) ∧
          ∀ device ∈ devices,
            F.attachDiskImage device.url device.readOnly = none := by
  rw [mapM_eq_ok_iff]
  induction disks generalizing devices with
  | nil =>
      rw [List.forall₂_nil_left_iff, List.forall₂_nil_left_iff]
      constructor
      · rintro rfl
        exact ⟨rfl, List.forall_mem_nil _, List.forall_mem_nil _⟩
      · rintro ⟨rfl, -⟩
        rfl
  | cons disk disks ih =>
      cases devices with
      | nil => simp
      | cons device devices =>
          rw [List.forall₂_cons, List.forall₂_cons, ih,
            createStorageDevice_eq_ok_iff, List.forall_mem_cons,
            List.forall_mem_cons]
          tauto

theorem mapM_createSharedDir_eq_ok_iff {dirs : List SharedDirConfig}
    {shares : List VZDirectoryShare} :
    dirs.mapM (createSharedDir present) = .ok shares ↔
      List.Forall₂ SharedDirConfig.SharedBy dirs shares ∧
        ∀ dir ∈ dirs, present dir.hostPath = true := by
  rw [mapM_eq_ok_iff, and_comm, ← List.forall₂_and_left]
  refine iff_of_eq (congrArg (fun R => List.Forall₂ R dirs shares) ?_)
  funext dir share
  exact propext (createSharedDir_eq_ok_iff.trans and_comm)

end Devices

/-! ## The whole machine -/

section Machine

variable {F : VZFramework ι} {V : VZGenericMachineIdentifier ι}
  {exception : Option Text} {present : Path → Bool} {host : Host} {fresh : ι}
  {config : VmConfig} {vz : VZVirtualMachineConfiguration ι}

/-- The byte count is the number of mebibytes in bytes, as far as 64 bits hold
it. -/
theorem VmConfig.toNat_memorySize (config : VmConfig) :
    config.memorySize.toNat =
      config.memoryMib.toNat * 1024 * 1024 % UInt64.size := by
  rw [memorySize, UInt64.toNat_mul, UInt64.toNat_mul, Nat.mod_mul_mod]
  rfl

/-- A build succeeds exactly when all its checks pass, and then gives the
framework what is configured. -/
theorem buildVzConfigInner_eq_ok_iff :
    buildVzConfigInner F V host fresh config = .ok vz ↔
      setMachineIdentifier V host fresh config.machineIdentifierPath =
          .ok (vz.machineIdentifier, config.presentAtBoot host) ∧
        config.Describes vz ∧ config.FilesThere host ∧
          F.Accepts host config vz := by
  constructor
  · intro hbuild
    rw [buildVzConfigInner] at hbuild
    obtain ⟨⟨identifier, present⟩, hidentifier, hbuild⟩ :=
      bind_eq_ok_iff.mp hbuild
    obtain rfl : present = config.presentAtBoot host :=
      setMachineIdentifier_present hidentifier
    obtain ⟨⟨loader, present⟩, hloader, hbuild⟩ := bind_eq_ok_iff.mp hbuild
    obtain rfl : present = config.presentAtDisks host :=
      setupBootLoader_present hloader
    obtain ⟨devices, hdevices, hbuild⟩ := bind_eq_ok_iff.mp hbuild
    obtain ⟨mac, hmac, hbuild⟩ := bind_eq_ok_iff.mp hbuild
    obtain ⟨⟨port, present⟩, hport, hbuild⟩ := bind_eq_ok_iff.mp hbuild
    obtain rfl : present = config.presentAtShares host :=
      createSerialPort_present hport
    obtain ⟨shares, hshares, hbuild⟩ := bind_eq_ok_iff.mp hbuild
    obtain ⟨hwhole, hvz⟩ := seq_eq_ok_iff.mp hbuild
    obtain rfl := Except.ok.inj hvz
    obtain ⟨hloaded, hfiles, hstore⟩ := setupBootLoader_eq_ok_iff.mp hloader
    rw [mapM_createStorageDevice_eq_ok_iff] at hdevices
    rw [createNetworkDevice_eq_ok_iff] at hmac
    obtain ⟨hserial, hattach⟩ := createSerialPort_eq_ok_iff.mp hport
    rw [mapM_createSharedDir_eq_ok_iff] at hshares
    refine ⟨hidentifier, ?_, ?_, ?_⟩
    · exact
        { cpus := UInt32.toNat_toUInt64 config.cpus
          memory := config.toNat_memorySize
          boot := hloaded
          disks := hdevices.1
          mac := hmac.1
          serial := hserial
          sharedDirs := hshares.1 }
    · exact
        { boot := hfiles
          disks := hdevices.2.1
          sharedDirs := hshares.2 }
    · exact
        { variableStore := hstore
          disks := hdevices.2.2
          mac := hmac.2
          serial := hattach
          whole := check_eq_ok_iff.mp hwhole }
  · rintro ⟨hidentifier, hdescribes, hfiles, haccepts⟩
    have hcpus : vz.cpuCount = config.cpus.toUInt64 :=
      UInt64.toNat_inj.mp (hdescribes.cpus.trans
        (UInt32.toNat_toUInt64 config.cpus).symm)
    have hmemory : vz.memorySize = config.memorySize :=
      UInt64.toNat_inj.mp (hdescribes.memory.trans
        config.toNat_memorySize.symm)
    have hloader : setupBootLoader F host (config.presentAtBoot host)
        config.boot = .ok (vz.bootLoader, config.presentAtDisks host) :=
      setupBootLoader_eq_ok_iff.mpr
        ⟨hdescribes.boot, hfiles.boot, haccepts.variableStore⟩
    have hdevices := mapM_createStorageDevice_eq_ok_iff.mpr
      ⟨hdescribes.disks, hfiles.disks, haccepts.disks⟩
    have hmac : createNetworkDevice F config.network = .ok vz.macAddress :=
      createNetworkDevice_eq_ok_iff.mpr ⟨hdescribes.mac, haccepts.mac⟩
    have hport : createSerialPort F host (config.presentAtDisks host)
        config.serial = .ok (vz.serialPort, config.presentAtShares host) :=
      createSerialPort_eq_ok_iff.mpr ⟨hdescribes.serial, haccepts.serial⟩
    have hshares := mapM_createSharedDir_eq_ok_iff.mpr
      ⟨hdescribes.sharedDirs, hfiles.sharedDirs⟩
    have hvz :
        ({ cpuCount := config.cpus.toUInt64
           memorySize := config.memoryMib * 1024 * 1024
           machineIdentifier := vz.machineIdentifier
           bootLoader := vz.bootLoader
           storageDevices := vz.storageDevices
           macAddress := vz.macAddress
           serialPort := vz.serialPort
           directorySharingDevices := vz.directorySharingDevices } :
          VZVirtualMachineConfiguration ι) = vz := by
      rw [← hcpus]
      exact congrArg (fun size => { vz with memorySize := size }) hmemory.symm
    rw [buildVzConfigInner]
    refine bind_eq_ok_iff.mpr ⟨_, hidentifier, ?_⟩
    refine bind_eq_ok_iff.mpr ⟨_, hloader, ?_⟩
    refine bind_eq_ok_iff.mpr ⟨_, hdevices, ?_⟩
    refine bind_eq_ok_iff.mpr ⟨_, hmac, ?_⟩
    refine bind_eq_ok_iff.mpr ⟨_, hport, ?_⟩
    refine bind_eq_ok_iff.mpr ⟨_, hshares, ?_⟩
    rw [hvz]
    exact seq_eq_ok_iff.mpr ⟨check_eq_ok_iff.mpr haccepts.whole, rfl⟩

/-- A machine that is created from a configuration: the configuration is valid
and the framework throws nothing, the identifier is the one that was set, and
the framework is given what is configured, finds its files and accepts it. -/
structure VmConfig.CreatedAs (F : VZFramework ι)
    (V : VZGenericMachineIdentifier ι) (exception : Option Text)
    (present : Path → Bool) (host : Host) (fresh : ι) (config : VmConfig)
    (m : Machine ι) : Prop where
  valid : config.validate present = .ok ()
  quiet : exception = none
  handle : m.handle = .create config
  identifier :
    setMachineIdentifier V host fresh config.machineIdentifierPath =
      .ok (m.vzConfig.machineIdentifier, config.presentAtBoot host)
  describes : config.Describes m.vzConfig
  files : config.FilesThere host
  accepts : F.Accepts host config m.vzConfig

theorem create_eq_ok_iff {m : Machine ι} :
    Machine.create F V exception present host fresh config = .ok m ↔
      config.CreatedAs F V exception present host fresh m := by
  rw [Machine.create, seq_eq_ok_iff, bind_eq_ok_iff]
  constructor
  · rintro ⟨hvalid, vz, hbuild, hm⟩
    obtain rfl := Except.ok.inj hm
    cases exception with
    | some desc => cases hbuild
    | none =>
        obtain ⟨hidentifier, hdescribes, hfiles, haccepts⟩ :=
          buildVzConfigInner_eq_ok_iff.mp hbuild
        exact ⟨hvalid, rfl, rfl, hidentifier, hdescribes, hfiles, haccepts⟩
  · rintro ⟨hvalid, rfl, hhandle, hidentifier, hdescribes, hfiles, haccepts⟩
    have hbuild := buildVzConfigInner_eq_ok_iff.mpr
      ⟨hidentifier, hdescribes, hfiles, haccepts⟩
    refine ⟨hvalid, m.vzConfig, hbuild, ?_⟩
    rw [← hhandle]

end Machine

/-- **A machine is what the calls say.**  The calls of a builder, built and
then created, make a machine exactly when the boot source that they select
lacks no path and what they configure slot by slot is valid each time and can
be created as it is: the framework is given the last values and, in the order
of the calls, the disks and shared directories, and each file is there when
the build looks for it, however the file system has changed meanwhile and
whatever the build itself has written before. -/
theorem created_iff_slots (F : VZFramework ι)
    (V : VZGenericMachineIdentifier ι) (exception : Option Text)
    (before present : Path → Bool) (host : Host) (fresh : ι)
    (hasher : Text → Text → UInt64) (id : VmId) (calls : List BuilderCall)
    (m : Machine ι) :
    (∃ config,
      (VmConfigBuilder.ofCalls hasher id calls).build before = .ok config ∧
      Machine.create F V exception present host fresh config = .ok m) ↔
    ∃ boot, VmConfigBuilder.buildBoot
        (selectedBoot (calls.filterMap BuilderCall.bootCall)) = .ok boot ∧
      ((slots hasher id calls).toConfig boot).validate before = .ok () ∧
      ((slots hasher id calls).toConfig boot).CreatedAs F V exception present
        host fresh m := by
  simp only [ofCalls_eq_slots, VmConfigBuilder.build_eq_ok_iff,
    create_eq_ok_iff]
  constructor
  · rintro ⟨config, ⟨boot, hboot, rfl, hvalid⟩, hcreated⟩
    exact ⟨boot, hboot, hvalid, hcreated⟩
  · rintro ⟨boot, hboot, hvalid, hcreated⟩
    exact ⟨_, ⟨boot, hboot, rfl, hvalid⟩, hcreated⟩

end Kasou
