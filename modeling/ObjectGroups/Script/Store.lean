/-
The state of a cog that runs scripts: variables of 64 signed bits, of which
one that was never written is zero, and a log.
-/
import ObjectGroups.Table
import ObjectGroups.Word

namespace ObjectGroups.Script

structure Store where
  vars : Table String Int := []
  log : List String := []
deriving DecidableEq, Repr

namespace Store

def read (s : Store) (v : String) : Int := (s.vars.get? v).getD 0

def write (s : Store) (v : String) (n : Int) : Store := { s with vars := s.vars.put v n }

def add (s : Store) (v : String) (n : Int) : Store := s.write v (Word.wrap (s.read v + n))

def append (s : Store) (line : String) : Store := { s with log := s.log ++ [line] }

end Store

end ObjectGroups.Script
