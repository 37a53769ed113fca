import Kasou.Config.Create
import Kasou.Dhcp.Store
import Kasou.Dhcp.TornRead
import Kasou.MacAddress.Framework
import Kasou.Vm.Step

/-!
# Runtime information

`info` reads the MAC address of the configuration with the crate's own parser,
and the framework has read it with its own when the machine was created.  The
framework's is the stricter one, so the address that is reported is the one
that was configured.
-/

namespace Kasou

open Checks MachineIdentifier

/-- Runtime information about a machine. -/
structure VmInfo where
  id : VmId
  state : VmState
  pid : Option UInt32
  uptimeSecs : Option UInt64
  macAddress : Option MacAddress
  ipAddress : Option Text

/-- `VmHandle::info` of a handle that was created at `createdAt`. -/
def VmHandle.info (table : LowercaseTable)
    (readToString : Path → Option Text) (pid : UInt32)
    (createdAt now : Instant) (h : VmHandle) : VmInfo where
  id := h.config.id
  state := h.state
  pid := some pid
  uptimeSecs := some (UInt64.ofNat ((now - createdAt) / 1000000000))
  macAddress := h.config.network.macAddress.bind fun mac =>
    (MacAddress.parse mac).toOption
  ipAddress := h.config.network.macAddress.bind
    (Dhcp.lookupIpByMac table readToString)

/-! ## What is reported -/

namespace VmHandle

open TransitionSystem

/-- The configuration of a handle stays. -/
theorem Step.config_eq {h h' : VmHandle} {a : Action} (hstep : Step h a h') :
    h'.config = h.config := by
  cases hstep <;> rfl

theorem config_of_run {h h' : VmHandle} {schedule : List Action}
    (hrun : run step h schedule = some h') : h'.config = h.config := by
  refine run_invariant (P := fun g => g.config = h.config) ?_ rfl hrun
  intro g a g' hconfig hstep
  exact (step_sound hstep).config_eq.trans hconfig

/-- The configured address of a created machine is one that the crate reads. -/
theorem exists_parse_of_created {ι : Type} {F : VZFramework ι}
    {V : VZGenericMachineIdentifier ι} {exception : Option Text}
    {present : Path → Bool} {host : Host} {fresh : ι} {config : VmConfig}
    {machine : Machine ι} {mac : Text}
    (hcreated : config.CreatedAs F V exception present host fresh machine)
    (hmac : config.network.macAddress = some mac) :
    ∃ m, MacAddress.parse mac = .ok m ∧
      mac.map Char.toLower = m.display :=
  MacAddress.parse_of_isMacText
    (hcreated.accepts.mac mac (hcreated.describes.mac.trans hmac))

end VmHandle

end Kasou
