import AccountRegistry.Environment.Settings
import AccountRegistry.Proofs.SpecFormat

/-!
# What is read is in range

What a document writes in a field of a spec is admitted there.  So every address in a spec that was
validated, and in settings that were read from an environment, is in the range that its reader
demands (`Spec.validate_inRange`, `Settings.load_overrides`).
-/

namespace AccountRegistry

/-! ## Specs -/

namespace Spec

/-- Every address, class reference and fee of a spec is in range. -/
structure InRange (spec : Spec) : Prop where
  deployer : Address.IsNative spec.deployer
  owner : Address.IsNative spec.owner
  nativeToken : ∀ token, spec.nativeToken = some token → Address.IsNative token
  references : ∀ entry ∈ spec.classReferences, Address.IsClassReference entry.2
  context : ∀ context, spec.chainContext = some context →
    Address.IsNative context.coinbase ∧ 0 ≤ context.baseFee

variable {data : Json Binary64} {spec : Spec} {n : Int}

/-- What stands in a field of a described spec is not negative, and the field admits it. -/
theorem Describes.admits {field : IntegerField} (hdescribes : Describes data spec)
    (hvalue : field.of spec = some n) : 0 ≤ n ∧ field.Admits n := by
  have hfield := hdescribes.integers field
  rw [hvalue, rel_some_iff] at hfield
  obtain ⟨json, -, hwrites, hadmits⟩ := hfield
  exact ⟨hwrites.nonneg, hadmits⟩

theorem Describes.isNative {field : IntegerField} (hdescribes : Describes data spec)
    (hadmits : ∀ n, field.Admits n ↔ n < 2 ^ 251 - 256) (hvalue : field.of spec = some n) :
    Address.IsNative n := by
  obtain ⟨hnonneg, hadmitted⟩ := hdescribes.admits hvalue
  exact (isNative_iff_of_nonneg hnonneg).mpr ((hadmits n).mp hadmitted)

/-- A described spec is in range. -/
theorem Describes.inRange (hdescribes : Describes data spec) : spec.InRange := by
  have hdeployer : IntegerField.deployer.of spec = some spec.deployer := rfl
  have howner : IntegerField.owner.of spec = some spec.owner := rfl
  refine ⟨hdescribes.isNative (fun _ => Iff.rfl) hdeployer,
    hdescribes.isNative (fun _ => Iff.rfl) howner, fun token htoken => ?_,
    fun entry hentry => ?_, fun context hcontext => ?_⟩
  · have hfield : IntegerField.nativeToken.of spec = some token := htoken
    exact hdescribes.isNative (fun _ => Iff.rfl) hfield
  · rw [hdescribes.listed, entries, List.mem_filterMap] at hentry
    obtain ⟨kind, -, hkind⟩ := hentry
    obtain ⟨n, hreference, rfl⟩ := Option.map_eq_some_iff.mp hkind
    have hfield : (IntegerField.reference kind).of spec = some n := hreference
    exact (hdescribes.admits hfield).2
  · have hcoinbase : IntegerField.coinbase.of spec = some context.coinbase :=
      congrArg (Option.map ContextSpec.coinbase) hcontext
    have hbaseFee : IntegerField.baseFee.of spec = some context.baseFee :=
      congrArg (Option.map ContextSpec.baseFee) hcontext
    exact ⟨hdescribes.isNative (fun _ => Iff.rfl) hcoinbase, (hdescribes.admits hbaseFee).1⟩

/-- A spec that was validated is in range. -/
theorem validate_inRange {data : Option (Json Binary64)} (hvalid : validate data = .ok spec) :
    spec.InRange := by
  cases data with
  | none => cases hvalid
  | some json => exact (validate_eq_ok_iff.mp hvalid).inRange

end Spec

/-! ## Settings -/

namespace Settings

theorem readOptional_valid {α : Type} {name : String} {read : String → Except Complaint α}
    {environment : Environment} {value : α}
    (hread : readOptional name read environment = .valid (some value)) :
    ∃ text, environment.get? name = some text ∧ read text = .ok value := by
  unfold readOptional at hread
  split at hread
  · cases hread
  · rename_i text htext
    split at hread
    · rename_i found hfound
      cases hread
      exact ⟨text, htext, hfound⟩
    · cases hread

theorem nativeAddress_ok {text : String} {address : Int}
    (hread : nativeAddress text = .ok address) : Address.IsNative address := by
  unfold nativeAddress Address.parseNative Address.native at hread
  split at hread
  · rename_i parsed hparsed
    cases hread
    split at hparsed
    · split at hparsed
      · rename_i hrange
        cases hparsed
        exact hrange
      · cases hparsed
    · cases hparsed
  · cases hread

/-- The addresses that an environment gives are in range. -/
theorem load_overrides {environment : Environment} {settings : RegistrySettings}
    (hload : load readRegistry environment = .ok settings) :
    (∀ deployer, (overrides settings).deployer = some deployer → Address.IsNative deployer) ∧
      ∀ owner, (overrides settings).owner = some owner → Address.IsNative owner := by
  have hread : readRegistry environment = .valid settings :=
    Checked.mapError_toExcept_eq_ok.mp hload
  obtain ⟨_, owner, hthree, howner, rfl⟩ := Checked.apply_eq_valid.mp hread
  obtain ⟨_, address, htwo, haddress, rfl⟩ := Checked.apply_eq_valid.mp hthree
  obtain ⟨_, path, hone, -, rfl⟩ := Checked.apply_eq_valid.mp htwo
  obtain ⟨base, -, rfl⟩ := Checked.map_eq_valid.mp hone
  constructor
  · rintro deployer rfl
    obtain ⟨text, -, htext⟩ := readOptional_valid haddress
    exact nativeAddress_ok htext
  · rintro newOwner rfl
    obtain ⟨text, -, htext⟩ := readOptional_valid howner
    exact nativeAddress_ok htext

end Settings

end AccountRegistry
