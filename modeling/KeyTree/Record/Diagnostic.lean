import KeyTree.Bytes.Secret
import KeyTree.Record.Basic
import KeyTree.Text.Diagnostic

/-!
# Diagnostics of extended key records

The key field is shown only if the version says that it is a public key.
-/

namespace KeyTree.Record

/-- The key field, or the text that stands for a secret unless the record holds a public key. -/
def keyDiagnostic (record : Record) : String :=
  match record.keyClass? with
  | some ⟨_, .publicKey⟩ => Decimal.list record.key.toList
  | _ => (Secret.mk record.key).diagnostic

/-- The diagnostic of a record. -/
def diagnostic (record : Record) : String :=
  Diagnostic.fields "ExtendedKeyRecord"
    [("version", Hexadecimal.markedUInt32 record.version),
      ("depth", toString record.depth.toNat),
      ("parent_fingerprint", Hexadecimal.ofUInt32 record.parentFingerprint),
      ("child_index", toString record.childIndex.toNat),
      ("chain_code", Decimal.list record.chainCode.toList),
      ("key", record.keyDiagnostic)]

end KeyTree.Record
