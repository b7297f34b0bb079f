/-!
# Vault faults

What can go wrong when a vault is opened with a key.
-/

namespace AccountRegistry

/-- Why a vault stays closed.

* `malformed`: the key is no address.
* `keyless`: the address of the key has no password.
* `environmentless`: the address of the key names no environment.
* `unlisted`: the vault has no variable for the environment.
* `keyLength`: the password does not end in 64 hexadecimal digits.
* `nonceless`: there is nothing in the sealed text.
* `tagLength`: the sealed text is too short for a tag of an allowed length.
* `forged`: the tag is not the one of the key and the sealed text. -/
inductive VaultFault where
  | malformed
  | keyless
  | environmentless
  | unlisted (name : String)
  | keyLength
  | nonceless
  | tagLength (length : Nat)
  | forged
  deriving DecidableEq, Repr, Inhabited

namespace VaultFault

/-- The kind of a fault. -/
def kind : VaultFault → String
  | .nonceless => "TypeError"
  | .tagLength _ => "TypeError"
  | _ => "Error"

/-- The code of a fault. -/
def code : VaultFault → String
  | .malformed => "INVALID_DOTENV_KEY"
  | .keyless => "INVALID_DOTENV_KEY"
  | .environmentless => "INVALID_DOTENV_KEY"
  | .keyLength => "INVALID_DOTENV_KEY"
  | .unlisted _ => "NOT_FOUND_DOTENV_ENVIRONMENT"
  | .forged => "DECRYPTION_FAILED"
  | .nonceless => "ERR_CRYPTO_INVALID_IV"
  | .tagLength _ => "ERR_CRYPTO_INVALID_AUTH_TAG"

/-- What is said about a fault, besides its code where the code is part of the message. -/
def explanation : VaultFault → String
  | .malformed =>
      "Wrong format. Must be in valid uri format like " ++
        "dotenv://:key_1234@dotenvx.com/vault/.env.vault?environment=development"
  | .keyless => "Missing key part"
  | .environmentless => "Missing environment part"
  | .unlisted name =>
      "Cannot locate environment " ++ name ++ " in your .env.vault file."
  | .keyLength => "It must be 64 characters long (or more)"
  | .forged => "Please check your DOTENV_KEY"
  | .nonceless => "Invalid initialization vector"
  | .tagLength length => "Invalid authentication tag length: " ++ Nat.repr length

/-- The message of a fault. -/
def message (fault : VaultFault) : String :=
  match fault with
  | .nonceless => fault.explanation
  | .tagLength _ => fault.explanation
  | _ => fault.code ++ ": " ++ fault.explanation

end VaultFault

end AccountRegistry
