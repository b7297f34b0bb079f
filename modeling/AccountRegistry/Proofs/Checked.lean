import AccountRegistry.Schema.Checked

/-!
# Checked values of parts

A checked value that is made of parts is valid exactly if all of its parts are, and its issues are
those of its parts.  What is checked at one path has issues there and nowhere else (`About`).
-/

namespace AccountRegistry.Checked

variable {ε α β : Type}

theorem map_eq_valid {checked : Checked α} {f : α → β} {result : β} :
    checked.map f = .valid result ↔ ∃ value, checked = .valid value ∧ f value = result := by
  cases checked with
  | valid value => simp [map]
  | invalid issues => simp [map]

theorem apply_eq_valid {function : Checked (α → β)} {checked : Checked α} {result : β} :
    function.apply checked = .valid result ↔
      ∃ f value, function = .valid f ∧ checked = .valid value ∧ f value = result := by
  cases function with
  | valid f => cases checked <;> simp [apply]
  | invalid issues => cases checked <;> simp [apply]

theorem refine_eq_valid {checked : Checked α} {holds : α → Bool} {path : List String}
    {message : String} {result : α} :
    checked.refine holds path message = .valid result ↔
      checked = .valid result ∧ holds result = true := by
  cases checked with
  | invalid issues => simp [refine]
  | valid value =>
      by_cases hholds : holds value = true
      · simp only [refine, if_pos hholds, valid.injEq]
        constructor
        · rintro rfl
          exact ⟨rfl, hholds⟩
        · exact And.left
      · simp only [refine, if_neg hholds, issue, valid.injEq, reduceCtorEq, false_iff]
        rintro ⟨rfl, hresult⟩
        exact hholds hresult

theorem mapError_toExcept_eq_ok {checked : Checked α} {fault : List Issue → ε} {result : α} :
    checked.toExcept.mapError fault = .ok result ↔ checked = .valid result := by
  cases checked with
  | valid value =>
      show (Except.ok value : Except ε α) = .ok result ↔ _
      rw [Except.ok.injEq, valid.injEq]
  | invalid issues =>
      constructor
      · intro hok
        cases hok
      · intro hvalid
        cases hvalid

/-! ## Issues -/

variable {path : List String} {checked : Checked α}

/-- The issues that were found. -/
def issues : Checked α → List Issue
  | .valid _ => []
  | .invalid issues => issues

theorem issues_map (f : α → β) (checked : Checked α) :
    (checked.map f).issues = checked.issues := by
  cases checked <;> rfl

theorem issues_apply (function : Checked (α → β)) (checked : Checked α) :
    (function.apply checked).issues = function.issues ++ checked.issues := by
  cases function <;> cases checked <;> simp [apply, issues]

/-- What is not valid has issues, all of them about one path. -/
def About (path : List String) (checked : Checked α) : Prop :=
  ∀ issues, checked = .invalid issues → issues ≠ [] ∧ ∀ issue ∈ issues, issue.path = path

theorem About.valid (value : α) : About path (.valid value) := nofun

theorem About.issue (complaint : Complaint) : About path (issue path complaint : Checked α) := by
  rintro _ ⟨⟩
  exact ⟨List.cons_ne_nil _ _, fun issue hmem => by rw [List.mem_singleton.mp hmem]⟩

theorem About.map (habout : About path checked) (f : α → β) :
    About path (checked.map f) := by
  cases checked with
  | valid value => exact .valid _
  | invalid issues =>
      rintro _ ⟨⟩
      exact habout issues rfl

theorem About.refine (habout : About path checked) (holds : α → Bool)
    (message : String) : About path (checked.refine holds path message) := by
  cases checked with
  | valid value =>
      unfold Checked.refine
      dsimp only
      split
      · exact .valid value
      · exact .issue _
  | invalid issues => exact habout

end AccountRegistry.Checked
