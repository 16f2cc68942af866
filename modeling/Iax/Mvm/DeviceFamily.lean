import Mathlib.Order.Basic

/-!
# The device families of iwlwifi

The driver tells the families apart by their order in `enum iwl_device_family`
(`iwl-config.h`).
-/

namespace Iax.Mvm

/-- `enum iwl_device_family`, oldest first. -/
inductive DeviceFamily
  | undefined | f1000 | f100 | f2000 | f2030 | f105 | f135 | f5000 | f5150 | f6000 | f6000i | f6005
  | f6030 | f6050 | f6150 | f7000 | f8000 | f9000 | f22000 | ax210 | bz
  deriving DecidableEq

instance : LE DeviceFamily := ⟨fun f g => f.ctorIdx ≤ g.ctorIdx⟩

instance (f g : DeviceFamily) : Decidable (f ≤ g) :=
  inferInstanceAs (Decidable (f.ctorIdx ≤ g.ctorIdx))

end Iax.Mvm
