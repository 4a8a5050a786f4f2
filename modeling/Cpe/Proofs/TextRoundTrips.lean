import Cpe.Main.Lookup
import Cpe.Main.TapSetup

/-! # Texts of addresses

`hexMacAddr` and `ValueToIP` print what other functions read again: the text of
a MAC address goes through the configuration file to `init_tap_tun_dev`, the
text of a netmask to `route_add_net`. Both are read back as what was printed. -/
namespace Cpe.Proofs.TextRoundTrips
open Cpe.Lib.ByteOrder Cpe.Lib.CString Cpe.Lib.Number Cpe.Lib.InetAddr Cpe.Main

/-! ## MAC addresses -/

/-- **A MAC address is read back from its text**: six parts, and the numbers in
them are the bytes. -/
theorem mac_text_round_trip (m : Bytes) (h : m.length = 6) :
    (split (hexMacAddr m) (str ":")).length = 6 ∧
      (split (hexMacAddr m) (str ":")).map (fun b => BitVec.ofInt 8 (strtol 16 b)) = m ∧
      macBytes (hexMacAddr m) = some m := by
  have hparts : split (hexMacAddr m) (str ":") = m.map hex2 := split_hexMacAddr ⟨m, h⟩
  have hread : macBytes (hexMacAddr m) = some m := macBytes_hexMacAddr ⟨m, h⟩
  have hlen : (split (hexMacAddr m) (str ":")).length = 6 := by rw [hparts, List.length_map, h]
  refine ⟨hlen, ?_, hread⟩
  rw [macBytes] at hread
  simp only [hlen, ne_eq, not_true_eq_false, if_false, Option.some.injEq] at hread
  exact hread

/-- Bytes with the highest bit, and a NUL. -/
theorem mac_text_round_trip_high :
    macBytes (hexMacAddr [0xff, 0x80, 0x00, 0x0a, 0x7f, 0x01]) =
      some [0xff, 0x80, 0x00, 0x0a, 0x7f, 0x01] :=
  (mac_text_round_trip [0xff, 0x80, 0x00, 0x0a, 0x7f, 0x01] rfl).2.2

/-! ## Addresses and netmasks -/

/-- `%d` of an `int`. -/
def percentD (x : U32) : Bytes :=
  if x.toInt < 0 then 45 :: decimal x.toInt.natAbs else decimal x.toInt.natAbs

theorem percentD_eq {x : U32} (h : x.toNat < 2 ^ 31) : percentD x = decimal x.toNat := by
  have hint : x.toInt = x.toNat := BitVec.toInt_eq_toNat_of_lt (by omega)
  rw [percentD, hint, if_neg (by omega), Int.natAbs_natCast]

/-- The highest mask of `ValueToIP` is `unsigned`, the others are `int` and
their shifts would copy a sign: they have none to copy, and no value is printed
with one. -/
theorem valueToIP_eq_printf (nValue : U32) :
    valueToIP nValue =
      percentD ((nValue &&& 0xff000000) >>> 24) ++ str "." ++
      percentD ((nValue &&& 0x00ff0000).sshiftRight 16) ++ str "." ++
      percentD ((nValue &&& 0x0000ff00).sshiftRight 8) ++ str "." ++
      percentD (nValue &&& 0x000000ff) := by
  have hsmall : ∀ m : U32, m.toNat < 2 ^ 31 → (nValue &&& m).toNat < 2 ^ 31 := by
    intro m hm
    rw [BitVec.toNat_and]
    exact Nat.lt_of_le_of_lt Nat.and_le_right hm
  have hdown : ∀ (x : U32) (k : Nat), x.toNat < 2 ^ 31 → (x >>> k).toNat < 2 ^ 31 := by
    intro x k hx
    rw [BitVec.toNat_ushiftRight, Nat.shiftRight_eq_div_pow]
    exact Nat.lt_of_le_of_lt (Nat.div_le_self _ _) hx
  have hunsigned : ((nValue &&& 0xff000000) >>> 24).toNat < 2 ^ 31 := by
    rw [BitVec.toNat_ushiftRight, Nat.shiftRight_eq_div_pow]
    have := (nValue &&& 0xff000000).isLt
    omega
  have hshift : ∀ (m : U32) (k : Nat), m.toNat < 2 ^ 31 →
      (nValue &&& m).sshiftRight k = (nValue &&& m) >>> k := by
    intro m k hm
    refine BitVec.sshiftRight_eq_of_msb_false ?_
    rw [BitVec.msb_eq_false_iff_two_mul_lt]
    have := hsmall m hm
    omega
  have h2 : (0x00ff0000 : U32).toNat < 2 ^ 31 := by decide
  have h1 : (0x0000ff00 : U32).toNat < 2 ^ 31 := by decide
  have h0 : (0x000000ff : U32).toNat < 2 ^ 31 := by decide
  rw [hshift _ _ h2, hshift _ _ h1, percentD_eq hunsigned, percentD_eq (hdown _ _ (hsmall _ h2)),
    percentD_eq (hdown _ _ (hsmall _ h1)), percentD_eq (hsmall _ h0), valueToIP]

theorem valueToIP_injective : Function.Injective valueToIP := by
  intro v w h
  rw [← inetAddr_valueToIP v, h, inetAddr_valueToIP]

/-- The networks of the loop of `add_route_for_nodes`, each with the mask that
was computed for it. -/
def computedMasks (s : Server) : List (Bytes × U32) :=
  (s.cpes.filter (s.localId ≠ ·.nodeID)).flatMap fun node =>
    (split node.nodeSubnet (str ",")).filterMap fun net =>
      (netMeta net).map fun m => (m.1, bitsetMask m.2)

/-- The route calls are given the texts of the computed masks. -/
theorem routeRequests_eq (s : Server) :
    routeRequests s = (computedMasks s).map fun m => (m.1, valueToIP m.2) := by
  have hnode : ∀ node : CpeNode, nodeRequests node =
      ((split node.nodeSubnet (str ",")).filterMap fun net =>
        (netMeta net).map fun m => (m.1, bitsetMask m.2)).map fun m => (m.1, valueToIP m.2) := by
    intro node
    rw [nodeRequests, List.map_filterMap]
    congr 1
    funext net
    rw [Option.map_map]
    rfl
  rw [routeRequests, requestsOf, computedMasks, List.map_flatMap]
  congr 1
  funext node
  exact hnode node

/-- **An address is read back from its text.** Every value prints as a dotted
quad of at most 15 characters that denotes it, so different values have
different texts, and the loop over the nodes passes texts to the route calls
that denote the masks it computed. -/
theorem value_text_round_trip :
    (∀ nValue : U32,
      (∃ a b c d, a ≤ 255 ∧ b ≤ 255 ∧ c ≤ 255 ∧ d ≤ 255 ∧ valueToIP nValue = quad a b c d) ∧
        (valueToIP nValue).length ≤ 15 ∧ htonl (inetAddr (valueToIP nValue)) = nValue) ∧
      Function.Injective valueToIP ∧
      ∀ (s : Server) (route : Bytes → Bytes → Finset Route → Finset Route),
        s.routeForNodes route =
          { s with
            routes := (routeRequests s).foldl
              (fun routes request => route request.1 request.2 routes) s.routes } ∧
          (routeRequests s).map (fun request => (request.1, htonl (inetAddr request.2))) =
            computedMasks s := by
  refine ⟨?_, valueToIP_injective, ?_⟩
  · intro nValue
    have hbyte : ∀ i, (byte nValue i).toNat ≤ 255 := fun i =>
      Nat.le_of_lt_succ (byte_toNat_lt nValue i)
    refine ⟨⟨_, _, _, _, hbyte 3, hbyte 2, hbyte 1, hbyte 0, valueToIP_eq nValue⟩, ?_,
      inetAddr_valueToIP nValue⟩
    rw [valueToIP_eq]
    exact length_quad_le (byte_toNat_lt _ _) (byte_toNat_lt _ _) (byte_toNat_lt _ _)
      (byte_toNat_lt _ _)
  · intro s route
    refine ⟨routeForNodes_requests s, ?_⟩
    rw [routeRequests_eq, List.map_map]
    simp only [Function.comp_def, inetAddr_valueToIP]
    exact List.map_id _

end Cpe.Proofs.TextRoundTrips
