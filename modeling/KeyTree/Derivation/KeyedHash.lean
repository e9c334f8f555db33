import KeyTree.Error
import KeyTree.Hash.Hmac

/-!
# Derivations and the keyed hash behind them

A derivation asks a keyed hash for 64 bytes at a time.  The hash may keep a state, so that a
derivation can be followed question by question; the state stays when the derivation fails.
-/

namespace KeyTree

/-- A source of 64 bytes for a key and a message, with a state that each question may change. -/
abbrev KeyedHash (state : Type) := List UInt8 → List UInt8 → StateM state (Bytes 64)

/-- A computation that asks a keyed hash and may fail. -/
abbrev Derivation (state : Type) := ExceptT Error (StateM state)

namespace KeyedHash

/-- HMAC-SHA512, which needs no state. -/
def hmac : KeyedHash Unit := fun key message => return Hash.hmacSha512 key message

/-- Outputs that are still to be handed out, and the questions asked so far. -/
structure Transcript where
  /-- The outputs that the next questions get. -/
  scripted : List (Bytes 64)
  /-- The key and the message of each question, the latest first. -/
  asked : List (List UInt8 × List UInt8)

/-- Hands out the scripted outputs, then those of HMAC-SHA512, and keeps every question. -/
def transcribed : KeyedHash Transcript := fun key message => do
  let transcript ← get
  let asked := (key, message) :: transcript.asked
  match transcript.scripted with
  | output :: scripted =>
      set (Transcript.mk scripted asked)
      return output
  | [] =>
      set (Transcript.mk [] asked)
      return Hash.hmacSha512 key message

end KeyedHash

namespace Derivation

/-- The outcome of a derivation whose keyed hash needs no state. -/
def outcome {result : Type} (derivation : Derivation Unit result) : Except Error result :=
  (derivation.run ()).1

end Derivation

end KeyTree
