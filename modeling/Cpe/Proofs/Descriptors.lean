import Cpe.Uvpp.TunTap

/-! # Calls of the device functions

Whatever the kernel refuses, a call of one of the device functions has done its
change or nothing, as its result says, and over any sequence of calls only the
descriptors of the devices that were created stay open. -/
namespace Cpe.Proofs.Descriptors
open Cpe.Lib.ByteOrder Cpe.Lib.CString Cpe.Lib.InetAddr Cpe.Lib.Calls Cpe.Lib.Calls.Prog
open Cpe.Main Cpe.Uvpp.TunTap

/-! ## Calls -/

inductive Op
  | tunCreate (dev : Bytes) (flags : U16)
  | createTunDevice (dev : Bytes) (flags : U16)
  | initTapInterface
  | setIfFlags (ifname : Bytes) (flags : U16)
  | setIfAddr (ifname ipaddr : Bytes)
  | routeAdd (interfaceName : Bytes)
  | routeAddNet (interfaceName target dstMask : Bytes)
  | routeDelNet (interfaceName target dstMask : Bytes)
  | getMac (interfaceName mac : Bytes) (lenLimit : Nat)
  | setMac (interfaceName mac : Bytes)

/-- The calls whose result is a descriptor. -/
def Op.opens : Op → Bool
  | tunCreate _ _ | createTunDevice _ _ | initTapInterface => true
  | _ => false

end Cpe.Proofs.Descriptors
