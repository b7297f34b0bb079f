import AccountRegistry.Cipher.Gcm
import AccountRegistry.Environment.Basic
import AccountRegistry.Environment.VaultFault
import AccountRegistry.Text.Base64
import AccountRegistry.Text.Blank
import AccountRegistry.Text.Locator

/-!
# Vaults

A vault is an environment whose variables are the sealed texts of other environments.  A key is an
address: its password ends in the digits of the cipher's key, and its parameter `environment` names
the text to open.  Of several keys, separated by commas, the first that opens its text counts.
-/

namespace AccountRegistry.Vault

/-- The variable that holds the sealed text of an environment: its name in capitals, where letters
beyond ASCII stay as they are. -/
def variableOf (environment : String) : String :=
  "DOTENV_VAULT_" ++ String.ofList (environment.toList.map Char.toUpper)

/-- The lengths that a tag may have. -/
def tagLengths : List Nat := [4, 8, 12, 13, 14, 15, 16]

/-- The text that bytes seal under the key of a password: a nonce of twelve bytes, the encrypted
text and a tag of sixteen bytes, which come before the others if there is too little of it all. -/
def unsealed (password : String) (bytes : List UInt8) : Except VaultFault String :=
  let digits := password.toList
  let key := Digits.hexBytes (digits.drop (digits.length - 64))
  let nonce := bytes.take 12
  let tag := bytes.drop (bytes.length - 16)
  let body := (bytes.take (bytes.length - 16)).drop 12
  if nonce.isEmpty then .error .nonceless
  else if key.length ≠ 32 then .error .keyLength
  else if !tagLengths.contains tag.length then .error (.tagLength tag.length)
  else
    match Gcm.opened? key nonce body tag with
    | some text => .ok (Utf8.decode text)
    | none => .error .forged

/-- The text that a key opens. -/
def openedBy (vault : Environment) (key : String) : Except VaultFault String :=
  match Locator.read? key with
  | none => .error .malformed
  | some locator =>
      if locator.password = "" then .error .keyless
      else
        match (locator.parameters.lookup "environment").filter (· ≠ "") with
        | none => .error .environmentless
        | some environment =>
            let name := variableOf environment
            match vault.nonEmpty? name with
            | none => .error (.unlisted name)
            | some text => unsealed locator.password (Base64.read text.toList)

/-- The text that the first fitting key opens, or the fault of the last one. -/
def openedByOne (vault : Environment) : List (List Char) → Except VaultFault String
  | [] => .error .malformed
  | [key] => openedBy vault (String.ofList (Blank.trim key))
  | key :: next :: rest =>
      match openedBy vault (String.ofList (Blank.trim key)) with
      | .ok text => .ok text
      | .error _ => openedByOne vault (next :: rest)

/-- The text that keys open. -/
def opened (vault : Environment) (keys : String) : Except VaultFault String :=
  openedByOne vault (Locator.split ',' keys.toList)

end AccountRegistry.Vault
