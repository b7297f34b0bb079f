import AccountRegistry.Proofs.Address
import Mathlib.Algebra.Order.Ring.Int

/-!
# What is hashed for an address

A word is written in 32 bytes, which give it back; so bytes that write words give back the list,
whatever its length, and no separators are needed.  The bytes that an address is hashed from are a
fixed prefix and four words, of which the last is itself a digest.

* `Word.ofBytes_bytes`: the bytes of a word give it back.
* `encodeWords_injective`: the bytes of words give back their list.
* `preimage_injective`: the 160 bytes of an address give back the four words.
* `listBytes`, `addressBytes`: what the derivation hashes, made from integers.
* `preimages_are_unambiguous`: no two inputs of the derivation are hashed from the same bytes.
-/

namespace AccountRegistry

/-! ## Words as bytes -/

namespace Word

theorem upperBound_eq : upperBound = 2 ^ 256 := by
  decide

/-- The word of an integer is the one with its value. -/
theorem ofInt?_eq_some_iff {value : Int} {word : Word} :
    ofInt? value = some word ↔ value = (word.toNat : Int) := by
  unfold ofInt?
  rw [upperBound_eq]
  constructor
  · intro hword
    split at hword
    · rename_i hrange
      cases hword
      rw [BitVec.toNat_ofNat]
      omega
    · cases hword
  · rintro rfl
    have hupper : word.toNat < 2 ^ 256 := word.isLt
    rw [if_pos (by omega), Int.toNat_natCast, BitVec.ofNat_toNat, BitVec.setWidth_eq]

theorem natOfBytes_append_singleton (bytes : List UInt8) (last : UInt8) :
    natOfBytes (bytes ++ [last]) = natOfBytes bytes * 256 + last.toNat := by
  simp [natOfBytes]

/-- The last bytes of a number write its remainder. -/
theorem natOfBytes_bytesOfNat (width n : Nat) :
    natOfBytes (bytesOfNat width n) = n % 256 ^ width := by
  induction width generalizing n with
  | zero => rw [Nat.pow_zero, Nat.mod_one]; rfl
  | succ width ih =>
      have hlast : (UInt8.ofNat (n % 256)).toNat = n % 256 := by
        rw [UInt8.toNat_ofNat']
        omega
      calc natOfBytes (bytesOfNat (width + 1) n)
          = natOfBytes (bytesOfNat width (n / 256)) * 256 + n % 256 := by
            rw [bytesOfNat, natOfBytes_append_singleton, hlast]
        _ = n / 256 % 256 ^ width * 256 + n % 256 := by rw [ih]
        _ = n % (256 * 256 ^ width) := by rw [Nat.mod_mul]; omega
        _ = n % 256 ^ (width + 1) := by rw [Nat.pow_succ, Nat.mul_comm]

/-- The bytes of a word write its value. -/
theorem natOfBytes_bytes (word : Word) : natOfBytes word.bytes = word.toNat := by
  rw [bytes, natOfBytes_bytesOfNat]
  exact Nat.mod_eq_of_lt word.isLt

/-- The bytes of a word give it back. -/
theorem ofBytes_bytes (word : Word) : ofBytes word.bytes = word := by
  rw [ofBytes, natOfBytes_bytes, BitVec.ofNat_toNat, BitVec.setWidth_eq]

theorem bytes_injective {first second : Word} (hbytes : first.bytes = second.bytes) :
    first = second := by
  rw [← ofBytes_bytes first, hbytes, ofBytes_bytes]

end Word

namespace Derivation

/-! ## Lists of words as bytes -/

theorem encodeWords_cons (word : Word) (words : List Word) :
    encodeWords (word :: words) = word.bytes ++ encodeWords words :=
  List.flatMap_cons

theorem encodeWords_length (words : List Word) :
    (encodeWords words).length = 32 * words.length := by
  induction words with
  | nil => rfl
  | cons word words ih =>
      rw [encodeWords_cons, List.length_append, Word.bytes_length, ih, List.length_cons]
      omega

/-- The bytes of words give back their list, its length included. -/
theorem encodeWords_injective {first second : List Word}
    (hbytes : encodeWords first = encodeWords second) : first = second := by
  have hlength : first.length = second.length := by
    have hcount := congrArg List.length hbytes
    rw [encodeWords_length, encodeWords_length] at hcount
    omega
  induction first generalizing second with
  | nil => exact (List.eq_nil_of_length_eq_zero hlength.symm).symm
  | cons word words ih =>
      cases second with
      | nil => cases hlength
      | cons other others =>
          rw [encodeWords_cons, encodeWords_cons] at hbytes
          have hwidth : word.bytes.length = other.bytes.length := by
            rw [Word.bytes_length, Word.bytes_length]
          obtain ⟨hhead, htail⟩ := List.append_inj hbytes hwidth
          rw [Word.bytes_injective hhead, ih htail (Nat.succ.inj hlength)]

theorem domain_length : domain.length = 32 := by
  decide

variable {deployer salt classReference arguments : Word}

theorem preimage_length :
    (preimage deployer salt classReference arguments).length = 160 := by
  rw [preimage, List.length_append, domain_length, encodeWords_length]
  rfl

/-- The bytes of an address give back its four words. -/
theorem preimage_injective {deployer' salt' classReference' arguments' : Word}
    (hbytes : preimage deployer salt classReference arguments =
      preimage deployer' salt' classReference' arguments') :
    deployer = deployer' ∧ salt = salt' ∧ classReference = classReference' ∧
      arguments = arguments' := by
  have hwords := encodeWords_injective (List.append_cancel_left hbytes)
  simpa only [List.cons.injEq, and_true] using hwords

/-! ## Integers as bytes -/

/-- The word of an integer is the one with its value. -/
theorem word_eq_ok {value : Int} {found : Word} :
    word value = .ok found ↔ value = (found.toNat : Int) := by
  rw [← Word.ofInt?_eq_some_iff, word]
  cases Word.ofInt? value with
  | none => simp
  | some word => simp

/-- An integer is a fault exactly if it is the value of no word. -/
theorem word_fails_iff {value : Int} :
    (∃ fault, word value = .error fault) ↔ ¬(0 ≤ value ∧ value < 2 ^ 256) := by
  rw [← Word.upperBound_eq, word, Word.ofInt?]
  by_cases hrange : 0 ≤ value ∧ value < Word.upperBound
  · simp [hrange]
  · simp [hrange]

theorem exists_word {value : Int} (hrange : 0 ≤ value ∧ value < 2 ^ 256) :
    ∃ found, word value = .ok found :=
  ⟨_, word_of_range hrange.1 (by rw [Word.upperBound_eq]; exact hrange.2)⟩

/-- The words of integers are the ones with their values. -/
theorem wordsOf_eq_ok {values : List Int} {words : List Word} :
    wordsOf values = .ok words ↔ values = words.map fun word => (word.toNat : Int) := by
  induction values generalizing words with
  | nil => cases words <;> simp [wordsOf]
  | cons value rest ih =>
      rw [wordsOf, except_bind_eq_ok]
      constructor
      · rintro ⟨first, hfirst, hrest⟩
        obtain ⟨others, hothers, hall⟩ := except_bind_eq_ok.mp hrest
        cases hall
        rw [List.map_cons, ← word_eq_ok.mp hfirst, ← ih.mp hothers]
      · intro hvalues
        cases words with
        | nil => cases hvalues
        | cons first others =>
            obtain ⟨hfirst, hrest⟩ := List.cons.inj hvalues
            exact ⟨first, word_eq_ok.mpr hfirst,
              except_bind_eq_ok.mpr ⟨others, ih.mpr hrest, rfl⟩⟩

theorem exists_wordsOf {values : List Int}
    (hrange : ∀ value ∈ values, 0 ≤ value ∧ value < 2 ^ 256) :
    ∃ words, wordsOf values = .ok words := by
  induction values with
  | nil => exact ⟨[], rfl⟩
  | cons value rest ih =>
      obtain ⟨hvalue, hothers⟩ := List.forall_mem_cons.mp hrange
      obtain ⟨first, hfirst⟩ := exists_word hvalue
      obtain ⟨others, hrest⟩ := ih hothers
      refine ⟨first :: others, except_bind_eq_ok.mpr ⟨first, hfirst, ?_⟩⟩
      exact except_bind_eq_ok.mpr ⟨others, hrest, rfl⟩

/-- The bytes that a list of integers is hashed from. -/
def listBytes (values : List Int) : Except Fault (List UInt8) :=
  (wordsOf values).map encodeWords

/-- The digest of a list of integers is that of its bytes. -/
theorem hashWords_eq (hash : Hash) (values : List Int) :
    hashWords hash values = (listBytes values).map hash := by
  rw [hashWords, listBytes]
  cases wordsOf values with
  | error fault => rfl
  | ok words => rfl

theorem listBytes_eq_ok {values : List Int} {bytes : List UInt8} :
    listBytes values = .ok bytes ↔
      ∃ words, wordsOf values = .ok words ∧ encodeWords words = bytes := by
  rw [listBytes]
  cases wordsOf values with
  | error fault => simp [Except.map]
  | ok words => simp [Except.map]

/-- The bytes of a list of integers give it back. -/
theorem listBytes_injective {first second : List Int} {bytes : List UInt8}
    (hfirst : listBytes first = .ok bytes) (hsecond : listBytes second = .ok bytes) :
    first = second := by
  obtain ⟨words, hwords, rfl⟩ := listBytes_eq_ok.mp hfirst
  obtain ⟨others, hothers, hbytes⟩ := listBytes_eq_ok.mp hsecond
  rw [wordsOf_eq_ok.mp hwords, wordsOf_eq_ok.mp hothers, encodeWords_injective hbytes]

/-- The bytes that the address of a deployment is hashed from. -/
def addressBytes (hash : Hash) (deployer salt classReference : Int) (arguments : List Int) :
    Except Fault (List UInt8) := do
  let deployerWord ← word deployer
  let saltWord ← word salt
  let classWord ← word classReference
  let argumentsWord ← hashWords hash arguments
  return preimage deployerWord saltWord classWord argumentsWord

/-- The bytes that the address of an account is hashed from. -/
def accountBytes (hash : Hash) (classReference evm deployer : Int) : Except Fault (List UInt8) :=
  addressBytes hash deployer evm classReference (accountArguments deployer evm)

section Deployment

variable {hash : Hash} {deployer salt classReference : Int} {arguments : List Int}
  {bytes : List UInt8}

theorem addressBytes_eq_ok :
    addressBytes hash deployer salt classReference arguments = .ok bytes ↔
      ∃ deployerWord saltWord classWord argumentsWord,
        deployer = (deployerWord.toNat : Int) ∧ salt = (saltWord.toNat : Int) ∧
        classReference = (classWord.toNat : Int) ∧
        hashWords hash arguments = .ok argumentsWord ∧
        bytes = preimage deployerWord saltWord classWord argumentsWord := by
  simp only [addressBytes, except_bind_eq_ok, word_eq_ok]
  constructor
  · rintro ⟨deployerWord, hdeployer, saltWord, hsalt, classWord, hclass, argumentsWord, hdigest,
      hbytes⟩
    cases hbytes
    exact ⟨deployerWord, saltWord, classWord, argumentsWord, hdeployer, hsalt, hclass, hdigest, rfl⟩
  · rintro ⟨deployerWord, saltWord, classWord, argumentsWord, hdeployer, hsalt, hclass, hdigest,
      rfl⟩
    exact ⟨deployerWord, hdeployer, saltWord, hsalt, classWord, hclass, argumentsWord, hdigest, rfl⟩

/-- An address is the digest of its bytes, modulo the bound of native addresses. -/
theorem contractAddress_of_addressBytes
    (hbytes : addressBytes hash deployer salt classReference arguments = .ok bytes) :
    contractAddress hash deployer salt classReference arguments =
      .ok (((hash bytes).toNat : Int) % Address.nativeUpperBound) := by
  obtain ⟨deployerWord, saltWord, classWord, argumentsWord, hdeployer, hsalt, hclass, hdigest,
    rfl⟩ := addressBytes_eq_ok.mp hbytes
  rw [contractAddress, word_eq_ok.mpr hdeployer, word_eq_ok.mpr hsalt, word_eq_ok.mpr hclass,
    hdigest]
  rfl

theorem addressBytes_length
    (hbytes : addressBytes hash deployer salt classReference arguments = .ok bytes) :
    bytes.length = 160 := by
  obtain ⟨_, _, _, _, -, -, -, -, rfl⟩ := addressBytes_eq_ok.mp hbytes
  exact preimage_length

/-- The bytes of an address give back all that it is made from but the arguments, of which they
give back the digest. -/
theorem addressBytes_injective {deployer' salt' classReference' : Int} {arguments' : List Int}
    (hfirst : addressBytes hash deployer salt classReference arguments = .ok bytes)
    (hsecond : addressBytes hash deployer' salt' classReference' arguments' = .ok bytes) :
    deployer = deployer' ∧ salt = salt' ∧ classReference = classReference' ∧
      hashWords hash arguments = hashWords hash arguments' := by
  obtain ⟨deployerWord, saltWord, classWord, argumentsWord, rfl, rfl, rfl, hdigest, hbytes⟩ :=
    addressBytes_eq_ok.mp hfirst
  obtain ⟨deployerWord', saltWord', classWord', argumentsWord', rfl, rfl, rfl, hdigest', hbytes'⟩ :=
    addressBytes_eq_ok.mp hsecond
  obtain ⟨rfl, rfl, rfl, rfl⟩ := preimage_injective (hbytes.symm.trans hbytes')
  exact ⟨rfl, rfl, rfl, hdigest.trans hdigest'.symm⟩

theorem exists_addressBytes (hash : Hash)
    (hrange : ∀ value ∈ deployer :: salt :: classReference :: arguments,
      0 ≤ value ∧ value < 2 ^ 256) :
    ∃ bytes, addressBytes hash deployer salt classReference arguments = .ok bytes := by
  simp only [List.forall_mem_cons] at hrange
  obtain ⟨hdeployer, hsalt, hclass, harguments⟩ := hrange
  obtain ⟨deployerWord, hdeployerWord⟩ := exists_word hdeployer
  obtain ⟨saltWord, hsaltWord⟩ := exists_word hsalt
  obtain ⟨classWord, hclassWord⟩ := exists_word hclass
  obtain ⟨words, hwords⟩ := exists_wordsOf harguments
  have hdigest : hashWords hash arguments = .ok (hash (encodeWords words)) := by
    rw [hashWords, hwords]
    rfl
  exact ⟨_, addressBytes_eq_ok.mpr ⟨deployerWord, saltWord, classWord, _,
    word_eq_ok.mp hdeployerWord, word_eq_ok.mp hsaltWord, word_eq_ok.mp hclassWord, hdigest, rfl⟩⟩

end Deployment

/-- Under what the services accept, an account has bytes that its address is hashed from. -/
theorem exists_accountBytes {classReference evm deployer : Int} (hash : Hash)
    (hreference : Address.IsClassReference classReference) (hevm : Address.IsEvm evm)
    (hdeployer : Address.IsNative deployer) :
    ∃ bytes, accountBytes hash classReference evm deployer = .ok bytes := by
  have hdeployerWord : 0 ≤ deployer ∧ deployer < 2 ^ 256 :=
    ⟨hdeployer.1, Int.lt_of_lt_of_le hdeployer.2 (by decide)⟩
  have hevmWord : 0 ≤ evm ∧ evm < 2 ^ 256 :=
    ⟨hevm.1, Int.lt_of_lt_of_le hevm.2 (by decide)⟩
  have hreferenceWord : 0 ≤ classReference ∧ classReference < 2 ^ 256 :=
    ⟨Int.le_of_lt hreference.1, Int.lt_of_lt_of_le hreference.2 (by decide)⟩
  apply exists_addressBytes
  simp only [accountArguments, List.forall_mem_cons]
  exact ⟨hdeployerWord, hevmWord, hreferenceWord, hdeployerWord, hevmWord, List.forall_mem_nil _⟩

/-- No two inputs of the derivation are hashed from the same bytes.  The bytes of a list of integers
that fit in words give back the list, its length included.  The bytes of an address are 160 and give
back the deployer, the salt, the class reference and the digest of the arguments, so accounts that
differ in class reference, EVM address or deployer are hashed from different bytes.  An integer is
a fault exactly if it does not fit in a word, whose 32 bytes write it. -/
theorem preimages_are_unambiguous (hash : Hash) :
    (∀ values : List Int, (∀ value ∈ values, 0 ≤ value ∧ value < 2 ^ 256) →
      ∃ bytes, listBytes values = .ok bytes ∧ hashWords hash values = .ok (hash bytes) ∧
        ∀ others, listBytes others = .ok bytes → others = values) ∧
    (∀ (deployer salt classReference : Int) (arguments : List Int),
      (∀ value ∈ deployer :: salt :: classReference :: arguments, 0 ≤ value ∧ value < 2 ^ 256) →
      ∃ bytes, addressBytes hash deployer salt classReference arguments = .ok bytes ∧
        contractAddress hash deployer salt classReference arguments =
          .ok (((hash bytes).toNat : Int) % Address.nativeUpperBound) ∧
        bytes.length = 160 ∧
        ∀ deployer' salt' classReference' arguments',
          addressBytes hash deployer' salt' classReference' arguments' = .ok bytes →
          deployer' = deployer ∧ salt' = salt ∧ classReference' = classReference ∧
            hashWords hash arguments' = hashWords hash arguments) ∧
    (∀ classReference evm deployer classReference' evm' deployer' : Int,
      Address.IsClassReference classReference → Address.IsEvm evm → Address.IsNative deployer →
      Address.IsClassReference classReference' → Address.IsEvm evm' → Address.IsNative deployer' →
      (classReference, evm, deployer) ≠ (classReference', evm', deployer') →
      ∃ bytes bytes', accountBytes hash classReference evm deployer = .ok bytes ∧
        accountBytes hash classReference' evm' deployer' = .ok bytes' ∧
        accountAddress hash classReference evm deployer =
          .ok (((hash bytes).toNat : Int) % Address.nativeUpperBound) ∧
        accountAddress hash classReference' evm' deployer' =
          .ok (((hash bytes').toNat : Int) % Address.nativeUpperBound) ∧
        bytes ≠ bytes') ∧
    ∀ value : Int,
      ((∃ fault, word value = .error fault) ↔ ¬(0 ≤ value ∧ value < 2 ^ 256)) ∧
      ∀ found, word value = .ok found →
        found.bytes.length = 32 ∧ (Word.natOfBytes found.bytes : Int) = value := by
  refine ⟨?_, ?_, ?_, fun value => ⟨word_fails_iff, fun found hfound => ?_⟩⟩
  · intro values hrange
    obtain ⟨words, hwords⟩ := exists_wordsOf hrange
    have hbytes : listBytes values = .ok (encodeWords words) :=
      listBytes_eq_ok.mpr ⟨words, hwords, rfl⟩
    refine ⟨_, hbytes, ?_, fun others hothers => listBytes_injective hothers hbytes⟩
    rw [hashWords_eq, hbytes]
    rfl
  · intro deployer salt classReference arguments hrange
    obtain ⟨bytes, hbytes⟩ := exists_addressBytes hash hrange
    exact ⟨bytes, hbytes, contractAddress_of_addressBytes hbytes, addressBytes_length hbytes,
      fun _ _ _ _ hothers => addressBytes_injective hothers hbytes⟩
  · intro classReference evm deployer classReference' evm' deployer' hreference hevm hdeployer
      hreference' hevm' hdeployer' hdifferent
    obtain ⟨bytes, hbytes⟩ := exists_accountBytes hash hreference hevm hdeployer
    obtain ⟨bytes', hbytes'⟩ := exists_accountBytes hash hreference' hevm' hdeployer'
    refine ⟨bytes, bytes', hbytes, hbytes', contractAddress_of_addressBytes hbytes,
      contractAddress_of_addressBytes hbytes', ?_⟩
    rintro rfl
    obtain ⟨rfl, rfl, rfl, -⟩ := addressBytes_injective hbytes hbytes'
    exact hdifferent rfl
  · rw [Word.natOfBytes_bytes]
    exact ⟨found.bytes_length, (word_eq_ok.mp hfound).symm⟩

/-- A zero counts, however many stand beside it, and an address is hashed from other bytes when
deployer and EVM address change places. -/
theorem preimages_are_unambiguous_when_swapped :
    (∃ bytes, listBytes [0] = .ok bytes ∧ listBytes [] ≠ .ok bytes ∧ listBytes [0, 0] ≠ .ok bytes) ∧
    ∃ bytes bytes', accountBytes Word.ofBytes 9 7 1 = .ok bytes ∧
      accountBytes Word.ofBytes 9 1 7 = .ok bytes' ∧ bytes ≠ bytes' := by
  obtain ⟨hlists, -, haccounts, -⟩ := preimages_are_unambiguous Word.ofBytes
  constructor
  · obtain ⟨bytes, hbytes, -, hunique⟩ := hlists [0] (by decide)
    refine ⟨bytes, hbytes, fun hnone => ?_, fun htwo => ?_⟩
    · exact absurd (hunique [] hnone) (by decide)
    · exact absurd (hunique [0, 0] htwo) (by decide)
  · obtain ⟨bytes, bytes', hbytes, hbytes', -, -, hdifferent⟩ :=
      haccounts 9 7 1 9 1 7 (by decide) (by decide) (by decide) (by decide) (by decide) (by decide)
        (by decide)
    exact ⟨bytes, bytes', hbytes, hbytes', hdifferent⟩

end Derivation

end AccountRegistry
