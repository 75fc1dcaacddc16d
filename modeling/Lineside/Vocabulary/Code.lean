import Lineside.Vocabulary.Table

/-!
Aspects, block states and roles. A script may compute and store any integer where one of these is
meant, so each is a code of which only some have names. Aspects are ordered from most to least
restrictive by their codes.
-/

namespace Lineside

structure Aspect where
  code : Int64
  deriving DecidableEq, Repr

namespace Aspect

def table : NameTable where
  lead := "SIGASP_"
  entries := [("STOP", 0), ("STOP_AND_PROCEED", 1), ("RESTRICTING", 2), ("APPROACH_1", 3),
    ("APPROACH_2", 4), ("APPROACH_3", 5), ("CLEAR_1", 6), ("CLEAR_2", 7), ("UNKNOWN", 8)]
  otherwise := "UNKNOWN"

def stop : Aspect := ⟨0⟩

def clear2 : Aspect := ⟨7⟩

def name (aspect : Aspect) : String := table.label aspect.code

def ofName (text : String) : Except UnknownName Aspect := (table.resolve text).map Aspect.mk

/-- The less restrictive of two aspects; the first where they are equal. -/
def freer (a b : Aspect) : Aspect := if a.code < b.code then b else a

/-- The more restrictive of two aspects; the first where they are equal. -/
def stricter (a b : Aspect) : Aspect := if b.code < a.code then b else a

end Aspect

structure Block where
  code : Int64
  deriving DecidableEq, Repr

namespace Block

def table : NameTable where
  lead := "BLOCK_"
  entries := [("CLEAR", 0), ("OCCUPIED", 1), ("JN_OBSTRUCTED", 2)]
  otherwise := "UNKNOWN"

def clear : Block := ⟨0⟩

def occupied : Block := ⟨1⟩

def name (block : Block) : String := table.label block.code

def ofName (text : String) : Except UnknownName Block := (table.resolve text).map Block.mk

end Block

structure Role where
  code : Int64
  deriving DecidableEq, Repr

namespace Role

def table : NameTable where
  lead := "SIGFN_"
  entries := [("NORMAL", 0), ("DISTANCE", 1), ("REPEATER", 2), ("SHUNTING", 3), ("INFO", 4),
    ("SPEED", 5), ("ALERT", 6), ("UNKNOWN", 7)]
  otherwise := "UNKNOWN"

def normal : Role := ⟨0⟩

def ofName (text : String) : Except UnknownName Role := (table.resolve text).map Role.mk

end Role

end Lineside
