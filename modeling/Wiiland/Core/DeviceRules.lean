/-
The profile of a device: the last rule that matches it, over the base profile.
-/
import Mathlib.Data.List.Infix
import Wiiland.Core.Config

namespace Wiiland

/-- `haystack.contains(needle)`. -/
def textContains (haystack needle : String) : Bool :=
  decide (needle.toList <:+: haystack.toList)

/-- A rule matches the text of its own kind, when the device has one. -/
def DeviceRule.matchesDevice (rule : DeviceRule) (syspath devtype : Option String) :
    Bool :=
  match rule.kind with
  | .syspath => syspath.any fun path => textContains path rule.matchText
  | .devtype => devtype.any fun kind => textContains kind rule.matchText

def Config.profileForDevice (config : Config) (syspath devtype : Option String) :
    Profile :=
  config.deviceRules.foldl
    (fun selected rule =>
      if rule.matchesDevice syspath devtype then rule.profile else selected)
    config.profile

/-- A validated configuration gives every device a valid profile. -/
theorem profileForDevice_isValid {config : Config} (hvalid : config.validate = .ok ())
    (syspath devtype : Option String) :
    (config.profileForDevice syspath devtype).isValid = true := by
  obtain ⟨hbase, _, _, _, _, _, hrules⟩ := config.validate_eq_ok_iff.mp hvalid
  unfold Config.profileForDevice
  revert hbase hrules
  generalize config.profile = selected
  generalize config.deviceRules = rules
  induction rules generalizing selected with
  | nil => exact fun hselected _ => hselected
  | cons rule rest ih =>
      intro hselected hrules
      rw [List.forall_mem_cons] at hrules
      refine ih _ ?_ hrules.2
      beta_reduce
      split
      · exact hrules.1.2
      · exact hselected

end Wiiland
