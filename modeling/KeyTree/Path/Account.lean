import KeyTree.Path.Basic

/-!
# Account paths

Wallets agree on a layout of five levels: a purpose, a coin, an account, whether the key takes
change, and a number.  The first three are hardened, so the key of an account can hand out all keys
below it without the private key.
-/

namespace KeyTree.Path

/-- The purpose of this layout. -/
def accountPurpose : ChildIndex := 44

/-- The number of Bitcoin among the coins. -/
def bitcoin : ChildIndex := 0

/-- The number of Ethereum among the coins. -/
def ethereum : ChildIndex := 60

/-- The path of an account. -/
def account (coin account : ChildIndex) : Path :=
  ⟨[accountPurpose, coin, account].map ChildIndex.harden⟩

/-- The path of a key in an account. -/
def address (coin account change number : ChildIndex) : Path :=
  ((Path.account coin account).child change).child number

end KeyTree.Path
