import Lineside.Text.Quoted

/-!
Internet addresses in text: four octets between points, or up to eight groups of hexadecimal digits
between colons, of which a double colon leaves some out and octets may replace the last two.
-/

namespace Lineside

inductive AddressProblem where
  | unrecognised
  | onlyZone
  | emptyZone
  | leadingZero
  | largeOctet
  | emptyOctet
  | manyOctets
  | fewOctets
  | strangeOctet
  | longGroup
  | emptyGroup
  | misplacedOctets
  | crowdedOctets
  | wantsColon
  | lastColon
  | secondGap
  | trailing
  | tooShort
  | emptyGap
  deriving DecidableEq, Repr

namespace AddressProblem

def message : AddressProblem → String
  | .unrecognised => "unable to parse IP"
  | .onlyZone => "missing IPv6 address"
  | .emptyZone => "zone must be a non-empty string"
  | .leadingZero => "IPv4 field has octet with leading zero"
  | .largeOctet => "IPv4 field has value >255"
  | .emptyOctet => "IPv4 field must have at least one digit"
  | .manyOctets => "IPv4 address too long"
  | .fewOctets => "IPv4 address too short"
  | .strangeOctet => "unexpected character"
  | .longGroup => "each group must have 4 or less digits"
  | .emptyGroup => "each colon-separated field must have at least one digit"
  | .misplacedOctets => "embedded IPv4 address must replace the final 2 fields of the address"
  | .crowdedOctets => "too many hex fields to fit an embedded IPv4 at the end of the address"
  | .wantsColon => "unexpected character, want colon"
  | .lastColon => "colon must be followed by more characters"
  | .secondGap => "multiple :: in address"
  | .trailing => "trailing garbage after address"
  | .tooShort => "address string too short"
  | .emptyGap => "the :: must expand to at least one field of zeros"

end AddressProblem

/-- An address that cannot be read, and its rest from where the problem is, where that is told. -/
structure AddressError where
  address : List UInt8
  problem : AddressProblem
  rest : List UInt8 := []
  deriving DecidableEq, Repr

namespace AddressError

def message (error : AddressError) : String :=
  "ParseAddr(" ++ Text.quotedBytes error.address ++ "): " ++ error.problem.message ++
    (if error.rest = [] then "" else " (at " ++ Text.quotedBytes error.rest ++ ")")

end AddressError

inductive AddressKind where
  | octets
  | groups
  deriving DecidableEq, Repr

namespace Address

def point : UInt8 := '.'.toUInt8

def colon : UInt8 := ':'.toUInt8

def percent : UInt8 := '%'.toUInt8

def isDigit (byte : UInt8) : Bool := '0'.toUInt8 ≤ byte && byte ≤ '9'.toUInt8

def isHexDigit (byte : UInt8) : Bool :=
  isDigit byte || ('a'.toUInt8 ≤ byte && byte ≤ 'f'.toUInt8) || ('A'.toUInt8 ≤ byte && byte ≤ 'F'.toUInt8)

/-- Reads octets from inside one on: how many points came before, and how many digits and which value
the octet has so far. -/
def octets (points digits value : Nat) : List UInt8 → Except (AddressProblem × List UInt8) Unit
  | [] => if points < 3 then .error (.fewOctets, []) else .ok ()
  | byte :: rest =>
    if isDigit byte then
      let next := 10 * value + (byte - '0'.toUInt8).toNat
      if digits = 1 ∧ value = 0 then .error (.leadingZero, [])
      else if 255 < next then .error (.largeOctet, [])
      else octets points (digits + 1) next rest
    else if byte = point then
      if digits = 0 ∨ rest = [] then .error (.emptyOctet, byte :: rest)
      else if points = 3 then .error (.manyOctets, [])
      else octets (points + 1) 0 0 rest
    else .error (.strangeOctet, byte :: rest)

/-- Ends an address: how many groups it could still have had, and whether it has a gap. -/
def finish (groups : Nat) (gap : Bool) (rest : List UInt8) : Except (AddressProblem × List UInt8) Unit :=
  if rest ≠ [] then .error (.trailing, rest)
  else if 0 < groups then if gap then .ok () else .error (.tooShort, [])
  else if gap then .error (.emptyGap, []) else .ok ()

def groups : Nat → Bool → List UInt8 → Except (AddressProblem × List UInt8) Unit
  | 0, gap, bytes => finish 0 gap bytes
  | left + 1, gap, bytes =>
    let digits := (bytes.takeWhile isHexDigit).length
    if 4 < digits then .error (.longGroup, bytes)
    else if digits = 0 then .error (.emptyGroup, bytes)
    else match bytes.drop digits with
      | [] => finish left gap []
      | mark :: rest =>
        if mark = point then
          if !gap ∧ left ≠ 1 then .error (.misplacedOctets, bytes)
          else if left = 0 then .error (.crowdedOctets, bytes)
          else do
            octets 0 0 0 bytes
            finish (left - 1) gap []
        else if mark ≠ colon then .error (.wantsColon, mark :: rest)
        else match rest with
          | [] => .error (.lastColon, mark :: rest)
          | next :: more =>
            if next = colon then
              if gap then .error (.secondGap, rest)
              else if more = [] then finish left true []
              else groups left true more
            else groups left gap rest

def groupsAndZone (bytes : List UInt8) : Except (AddressProblem × List UInt8) Unit :=
  let address := bytes.takeWhile (· != percent)
  if bytes.dropWhile (· != percent) = [percent] then .error (.emptyZone, [])
  else match address with
    | first :: second :: rest =>
      if first = colon ∧ second = colon then if rest = [] then .ok () else groups 8 true rest
      else groups 8 false address
    | _ => groups 8 false address

def kind (bytes : List UInt8) : Except AddressError AddressKind :=
  let refused (reason : AddressProblem × List UInt8) : AddressError := ⟨bytes, reason.1, reason.2⟩
  match bytes.find? fun byte => byte == point || byte == colon || byte == percent with
  | none => .error ⟨bytes, .unrecognised, []⟩
  | some mark =>
    if mark = point then ((octets 0 0 0 bytes).mapError refused).map fun _ => .octets
    else if mark = colon then ((groupsAndZone bytes).mapError refused).map fun _ => .groups
    else .error ⟨bytes, .onlyZone, []⟩

end Address

end Lineside
