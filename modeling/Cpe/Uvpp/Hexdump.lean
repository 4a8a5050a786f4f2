import Cpe.Lib.Streams

/-! # `hexdump` of `util.hpp`

The three overloads, which differ in how they come by the vector, and a reader
of what they print. `none` is a call that does not return. -/
namespace Cpe.Uvpp
open Cpe.Lib.ByteOrder Cpe.Lib.CString Cpe.Lib.Number Cpe.Lib.Streams

/-- A size stored in an `int`. -/
def intOf (n : Nat) : Int := (BitVec.ofNat 32 n).toInt

/-- `isprint` of the C locale. A `char` from 0x80 on is negative there. -/
def isprint (c : Byte) : Bool := 32 ≤ c && c ≤ 126

/-- One turn of the outer loop. -/
def hexdumpLine (bytes : Bytes) (buflen i : Nat) (buff : OStream) : OStream :=
  let buff := (((buff.right.setfill 48).setw 4).putInt i).put (str "  ")
  let buff := buff.hex
  let buff := (List.range 16).foldl (fun buff j =>
    if i + j < buflen then
      let c := bytes.getD (i + j) 0
      (((buff.setfill 48).setw 2).putInt (c.signExtend 32 &&& 0xFF).toNat).put (str " ")
    else buff.put (str "   ")) buff
  let buff := buff.dec.put (str " ")
  let buff := (List.range 16).foldl (fun buff j =>
    if i + j < buflen then
      let c := bytes.getD (i + j) 0
      if isprint c then buff.put [c] else buff.put (str ".")
    else buff) buff
  buff.endl

/-- `hexdump` of a vector. -/
def hexdump (bytes : Bytes) : Option Bytes :=
  -- there is no turn for a negative `buflen`
  let buflen := (intOf bytes.length).toNat
  let lines := (buflen + 15) / 16
  -- the last `i += 16` has to fit
  if 16 * lines < 2 ^ 31 then
    some ((List.range lines).foldl (fun buff k => hexdumpLine bytes buflen (16 * k) buff) {}).text
  else none

/-- `hexdump` of a string: the copy goes over the zeros of the vector. -/
def hexdumpString (msg : Bytes) : Option Bytes :=
  let dumpData := List.replicate msg.length 0#8
  hexdump (msg ++ dumpData.drop msg.length)

/-- `hexdump` of a pointer and a length: the copy goes behind the zeros of the
vector. There is no vector of a negative length. -/
def hexdumpPtr (data : Ptr) (len : Int) : Option Bytes :=
  if len < 0 then none
  else
    let dumpData := List.replicate len.toNat 0#8
    hexdump (dumpData ++ data.slice 0 len.toNat)

/-! ## `hexdump2` -/

/-- One turn of the loop, on the text in `output`. -/
def hexdump2Turn (buf : Ptr) (output : Bytes) (i : Nat) : Option Bytes :=
  (strcat 8192 output (hex2 (buf i) ++ str " ")).bind fun output =>
    if (i + 1) % 16 = 0 then strcat 8192 output (str "\n") else some output

/-- What `hexdump2` prints between its two rules; `none` when it writes behind
the end of `output`. -/
def hexdump2 (buf : Ptr) (len : Int) : Option Bytes :=
  ((List.range len.toNat).foldlM (hexdump2Turn buf) []).bind fun output =>
    if len.toNat % 16 ≠ 0 then strcat 8192 output (str "\n") else some output

/-! ## Reading a dump -/

/-- At most `n` columns of two digits and a space. -/
def readColumns : Nat → Bytes → Bytes
  | 0, _ => []
  | n + 1, hi :: lo :: _ :: rest =>
    if digitVal hi < 16 ∧ digitVal lo < 16 then
      BitVec.ofNat 8 (16 * digitVal hi + digitVal lo) :: readColumns n rest
    else []
  | _ + 1, _ => []

/-- The columns behind the offset and two spaces. -/
def readLine (line : Bytes) : Bytes := readColumns 16 ((line.dropWhile (· ≠ 32)).drop 2)

def readDump (text : Bytes) : Bytes := (text.splitOn 10).flatMap readLine

end Cpe.Uvpp
