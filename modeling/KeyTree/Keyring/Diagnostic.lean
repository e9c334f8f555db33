import KeyTree.Keyring.Entry
import KeyTree.Text.Diagnostic

/-!
# Diagnostics of keys

A key is shown with its position and with what is known of its public key.  A private key is shown
as present, and no more.
-/

namespace KeyTree.Keyring

/-- The name of a curve in diagnostics. -/
def curveDiagnostic : Curve → String
  | .secp256k1 => "Secp256k1"
  | .p256 => "P256"
  | .ed25519 => "Ed25519"

namespace Entry

variable {group : CurveGroup}

/-- The diagnostic of a key without its parent. -/
def nodeDiagnostic (entry : Entry group) : String :=
  Diagnostic.fields "HdNode"
    [("curve", curveDiagnostic group.curve),
      ("depth", toString entry.key.depth.toNat),
      ("child_index", toString entry.key.childIndex.toNat),
      ("chain_code", Decimal.list entry.key.chainCode.toList),
      ("private_key", Diagnostic.optional (entry.key.private?.map Secret.diagnostic)),
      ("public_key", Diagnostic.optional (entry.known.map fun slot => Decimal.list slot.toList))]

/-- The diagnostic of a key. -/
def diagnostic (entry : Entry group) : String :=
  Diagnostic.fields "HdKey"
    [("node", entry.nodeDiagnostic),
      ("parent_fingerprint", toString entry.key.parentFingerprint.toNat)]

end Entry

end KeyTree.Keyring
