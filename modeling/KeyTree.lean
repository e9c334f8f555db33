import KeyTree.Base58.Check
import KeyTree.Bytes.Basic
import KeyTree.Bytes.Integer
import KeyTree.Bytes.Secret
import KeyTree.CommandLine.Argument
import KeyTree.CommandLine.Choice
import KeyTree.CommandLine.Command
import KeyTree.CommandLine.Misuse
import KeyTree.CommandLine.Outcome
import KeyTree.CommandLine.Parser
import KeyTree.CommandLine.Settings
import KeyTree.Curve.Basic
import KeyTree.Curve.Edwards
import KeyTree.Curve.Group
import KeyTree.Curve.Multiple
import KeyTree.Curve.PrimeField
import KeyTree.Curve.Standard
import KeyTree.Curve.Weierstrass.Basic
import KeyTree.Curve.Weierstrass.Encoding
import KeyTree.Curve.Weierstrass.Jacobian
import KeyTree.Derivation.Candidate
import KeyTree.Derivation.KeyedHash
import KeyTree.Derivation.Message
import KeyTree.Derivation.Search
import KeyTree.Derivation.Step
import KeyTree.Error
import KeyTree.Hash.Fingerprint
import KeyTree.Hash.Hmac
import KeyTree.Hash.Ripemd160
import KeyTree.Hash.Sha2
import KeyTree.Hash.Word
import KeyTree.Key.Basic
import KeyTree.Key.Child
import KeyTree.Key.Extended
import KeyTree.Keyring.Basic
import KeyTree.Keyring.Diagnostic
import KeyTree.Keyring.Entry
import KeyTree.Keyring.Operation
import KeyTree.Main
import KeyTree.Path.Account
import KeyTree.Path.Basic
import KeyTree.Path.Index
import KeyTree.Path.Parser
import KeyTree.Record.Basic
import KeyTree.Record.Diagnostic
import KeyTree.Record.Position
import KeyTree.Record.Version
import KeyTree.Report.Derived
import KeyTree.Report.Failure
import KeyTree.Report.Inspected
import KeyTree.Report.Layout
import KeyTree.Text.Blank
import KeyTree.Text.CharLiteral
import KeyTree.Text.Decimal
import KeyTree.Text.Diagnostic
import KeyTree.Text.Hexadecimal
import KeyTree.Text.JsonObject
import KeyTree.Text.LabelledLines
import KeyTree.Text.Radix
import KeyTree.Proofs.Base58.Check
import KeyTree.Proofs.Base58.Spelling
import KeyTree.Proofs.Base58.Refusal
import KeyTree.Proofs.Record.Codec
import KeyTree.Proofs.Text.Radix
import KeyTree.Proofs.Text.Decimal
import KeyTree.Proofs.Text.Hexadecimal
import KeyTree.Proofs.Path.Grammar
import KeyTree.Proofs.Key.WatchOnly
import KeyTree.Proofs.Keyring.Follows
import KeyTree.Proofs.Derivation.FirstAccepted
import KeyTree.Proofs.Derivation.Transcript
import KeyTree.Proofs.Derivation.Step
import KeyTree.Proofs.Group.Lawful
import KeyTree.Proofs.Group.Generated
import KeyTree.Proofs.Key.Child
import KeyTree.Proofs.Key.Reachable
import KeyTree.Proofs.Key.Extended
import KeyTree.Proofs.Key.Commutation
import KeyTree.Proofs.Key.Offset
import KeyTree.Proofs.Curve.Multiple
import KeyTree.Proofs.Curve.Primality
import KeyTree.Proofs.Curve.Moduli
import KeyTree.Proofs.Curve.PrimeField
import KeyTree.Proofs.Curve.Weierstrass.Group
import KeyTree.Proofs.Curve.Weierstrass.Jacobian
import KeyTree.Proofs.Curve.Weierstrass.Encoding
import KeyTree.Proofs.Curve.Weierstrass.Lawful
import KeyTree.Proofs.Curve.Edwards.Law
import KeyTree.Proofs.Curve.Edwards.Group
import KeyTree.Proofs.Curve.Edwards.Extended
import KeyTree.Proofs.Curve.Edwards.Encoding
import KeyTree.Proofs.Curve.Edwards.Lawful
import KeyTree.Proofs.Curve.Standard
import KeyTree.Proofs.Key.Acceptance
import KeyTree.Proofs.Curve.Edwards.Canonical
import KeyTree.Proofs.Curve.Edwards.Generated
import KeyTree.Proofs.Curve.Edwards.Denotation
import KeyTree.Proofs.Curve.Weierstrass.Canonical
import KeyTree.Proofs.Curve.Weierstrass.Generated
import KeyTree.Proofs.Curve.Weierstrass.Denotation
import KeyTree.Proofs.Key.Canonical
import KeyTree.Proofs.Key.Normal
import KeyTree.Proofs.Keyring.Bare
import KeyTree.Proofs.Keyring.Growth
import KeyTree.Proofs.Keyring.Unobservable
import KeyTree.Proofs.Report.Agreement
import KeyTree.Proofs.Report.Layout
import KeyTree.Proofs.Report.Inspection
import KeyTree.Proofs.CommandLine.Reading
import KeyTree.Proofs.CommandLine.Agreement
import KeyTree.Proofs.CommandLine.Secrecy
import KeyTree.Proofs.Path.Canonical
import KeyTree.Proofs.Key.Composition
import KeyTree.Proofs.Key.Displacement
import KeyTree.Proofs.Derivation.Replay
import KeyTree.Proofs.Key.Replay
import KeyTree.Proofs.Key.Exhaustion
import KeyTree.Proofs.Key.Separation
