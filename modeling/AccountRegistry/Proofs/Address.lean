import AccountRegistry.Derivation
import AccountRegistry.Proofs.Procedure

/-!
# Addresses in range

Integers in the range of an address have a written form, so that the formatters cannot fail on
them, and whatever the derivation comes to is in the range of native addresses.  Nothing here
depends on the hash.
-/

namespace AccountRegistry

namespace Word

theorem ofInt?_of_range {value : Int} (hlower : 0 ≤ value) (hupper : value < upperBound) :
    ofInt? value = some (BitVec.ofNat 256 value.toNat) :=
  if_pos ⟨hlower, hupper⟩

end Word

namespace Address

theorem isEvm_iff {value : Int} : IsEvm value ↔ 0 ≤ value ∧ value < Int.pow 2 160 :=
  Iff.rfl

theorem isNative_iff {value : Int} : IsNative value ↔ 0 ≤ value ∧ value < Int.pow 2 251 - 256 :=
  Iff.rfl

/-- A native address has a written form. -/
theorem IsNative.formatNative {value : Int} (hrange : IsNative value) :
    ∃ text, Address.formatNative value = .ok text := by
  have hupper : value < Word.upperBound :=
    Int.lt_of_lt_of_le hrange.2 (by decide)
  rw [Address.formatNative, Word.ofInt?_of_range hrange.1 hupper]
  exact ⟨_, rfl⟩

/-- An EVM address has a written form. -/
theorem IsEvm.formatEvm {value : Int} (hrange : IsEvm value) (hash : Hash) :
    ∃ text, Address.formatEvm hash value = .ok text :=
  ⟨_, if_pos hrange⟩

end Address

namespace Derivation

theorem word_of_range {value : Int} (hlower : 0 ≤ value) (hupper : value < Word.upperBound) :
    word value = .ok (BitVec.ofNat 256 value.toNat) := by
  rw [word, Word.ofInt?_of_range hlower hupper]

/-- Under a class reference in range, every EVM address has an account address. -/
theorem accountAddress_of_range {classReference evm deployer : Int} (hash : Hash)
    (hreference : Address.IsClassReference classReference) (hevm : Address.IsEvm evm)
    (hdeployer : Address.IsNative deployer) :
    ∃ native, accountAddress hash classReference evm deployer = .ok native := by
  have hreferenceWord :=
    word_of_range (Int.le_of_lt hreference.1) (Int.lt_of_lt_of_le hreference.2 (by decide))
  have hevmWord := word_of_range hevm.1 (Int.lt_of_lt_of_le hevm.2 (by decide))
  have hdeployerWord := word_of_range hdeployer.1 (Int.lt_of_lt_of_le hdeployer.2 (by decide))
  simp only [accountAddress, contractAddress, accountArguments, hashWords, wordsOf,
    hreferenceWord, hevmWord, hdeployerWord]
  exact ⟨_, rfl⟩

/-- Every derived address is in the range of native addresses, whatever the hash is. -/
theorem contractAddress_isNative {hash : Hash} {deployer salt classReference address : Int}
    {arguments : List Int}
    (hderived : contractAddress hash deployer salt classReference arguments = .ok address) :
    Address.IsNative address := by
  unfold contractAddress at hderived
  obtain ⟨_, -, hderived⟩ := except_bind_eq_ok.mp hderived
  obtain ⟨_, -, hderived⟩ := except_bind_eq_ok.mp hderived
  obtain ⟨_, -, hderived⟩ := except_bind_eq_ok.mp hderived
  obtain ⟨_, -, hderived⟩ := except_bind_eq_ok.mp hderived
  cases hderived
  have hpositive : (0 : Int) < Address.nativeUpperBound := by decide
  exact ⟨Int.emod_nonneg _ (Int.ne_of_gt hpositive), Int.emod_lt_of_pos _ hpositive⟩

theorem accountAddress_isNative {hash : Hash} {classReference evm deployer address : Int}
    (hderived : accountAddress hash classReference evm deployer = .ok address) :
    Address.IsNative address :=
  contractAddress_isNative hderived

end Derivation

end AccountRegistry
