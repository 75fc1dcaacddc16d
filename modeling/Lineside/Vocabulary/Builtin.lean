import Lineside.Vocabulary.Table

/-!
The function table of the script language: which functions a term may call, under which name, and with
how many parameters.
-/

namespace Lineside

inductive Builtin where
  | blockState
  | routeSet
  | nextSignalLeast
  | nextSignalMost
  | thisSignalLeast
  | thisSignalMost
  | oppositeSignalLeast
  | oppositeSignalMost
  | nextNthSignalLeast
  | distantMultiMost
  | signalFeature
  | approachControlPosition
  | approachControlSpeed
  | trainHasCallOn
  | trainHasCallOnRestricted
  | hasHead
  | defaultDrawState
  | debugHeader
  | debugOut
  | allowClearToPartialRoute
  deriving DecidableEq, Repr

namespace Builtin

def all : List Builtin :=
  [.blockState, .routeSet, .nextSignalLeast, .nextSignalMost, .thisSignalLeast, .thisSignalMost,
    .oppositeSignalLeast, .oppositeSignalMost, .nextNthSignalLeast, .distantMultiMost, .signalFeature,
    .approachControlPosition, .approachControlSpeed, .trainHasCallOn, .trainHasCallOnRestricted,
    .hasHead, .defaultDrawState, .debugHeader, .debugOut, .allowClearToPartialRoute]

def name : Builtin → String
  | .blockState => "BLOCK_STATE"
  | .routeSet => "ROUTE_SET"
  | .nextSignalLeast => "NEXT_SIG_LR"
  | .nextSignalMost => "NEXT_SIG_MR"
  | .thisSignalLeast => "THIS_SIG_LR"
  | .thisSignalMost => "THIS_SIG_MR"
  | .oppositeSignalLeast => "OPP_SIG_LR"
  | .oppositeSignalMost => "OPP_SIG_MR"
  | .nextNthSignalLeast => "NEXT_NSIG_LR"
  | .distantMultiMost => "DIST_MULTI_SIG_MR"
  | .signalFeature => "SIG_FEATURE"
  | .approachControlPosition => "APPROACH_CONTROL_POSITION"
  | .approachControlSpeed => "APPROACH_CONTROL_SPEED"
  | .trainHasCallOn => "TRAINHASCALLON"
  | .trainHasCallOnRestricted => "TRAINHASCALLON_RESTRICTED"
  | .hasHead => "HASHEAD"
  | .defaultDrawState => "DEF_DRAW_STATE"
  | .debugHeader => "DEBUG_HEADER"
  | .debugOut => "DEBUG_OUT"
  | .allowClearToPartialRoute => "ALLOW_CLEAR_TO_PARTIAL_ROUTE"

def arity : Builtin → Nat
  | .blockState | .routeSet | .trainHasCallOn | .trainHasCallOnRestricted | .debugHeader => 0
  | .nextNthSignalLeast | .distantMultiMost | .approachControlSpeed => 2
  | _ => 1

def code : Builtin → Int64
  | .blockState => 2
  | .routeSet => 3
  | .nextSignalLeast => 4
  | .nextSignalMost => 5
  | .thisSignalLeast => 6
  | .thisSignalMost => 7
  | .oppositeSignalLeast => 8
  | .oppositeSignalMost => 9
  | .nextNthSignalLeast => 10
  | .distantMultiMost => 11
  | .signalFeature => 12
  | .approachControlPosition => 13
  | .approachControlSpeed => 14
  | .trainHasCallOn => 15
  | .trainHasCallOnRestricted => 16
  | .hasHead => 17
  | .defaultDrawState => 18
  | .debugHeader => 19
  | .debugOut => 20
  | .allowClearToPartialRoute => 21

def ofCode? (code : Int64) : Option Builtin := all.find? (·.code == code)

end Builtin

inductive Callee where
  | none
  /-- The marker that ends a term list, and a script where it comes first. -/
  | returning
  | builtin (function : Builtin)
  | unknown (code : Int64)
  deriving DecidableEq, Repr

namespace Callee

def ofCode (code : Int64) : Callee :=
  if code = 0 then .none
  else if code = 1 then .returning
  else match Builtin.ofCode? code with
    | some function => .builtin function
    | Option.none => .unknown code

def code : Callee → Int64
  | .none => 0
  | .returning => 1
  | .builtin function => function.code
  | .unknown code => code

def name : Callee → String
  | .none => "NONE"
  | .returning => "RETURN"
  | .builtin function => function.name
  | .unknown _ => "UNKNOWN"

def ofName (text : String) : Except UnknownName Callee :=
  if text = "RETURN" then .ok .returning else
  match Builtin.all.find? (·.name == text) with
  | some function => .ok (.builtin function)
  | Option.none => .error ⟨text⟩

end Callee

end Lineside
