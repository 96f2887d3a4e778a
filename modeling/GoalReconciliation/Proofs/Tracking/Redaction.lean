import GoalReconciliation.Tracking.Redaction

/-!
# What redaction hides

* `Redaction.Alike` : two values that differ only in what stands under sensitive names, at any depth, or only as far as
  redaction reaches: not within the lists that are items of lists;
* `alike_redact` : a redacted value differs from the value in nothing else;
* `redactValue_of_alike`, `alike_of_redactValue` : field values are redacted alike if they differ within reach, and only
  then;
* `redact_eq_iff` : **two objects are redacted alike if and only if they differ within reach, and all else is shown**;
* `redact_leaks` : what stands under a sensitive name in a list within a list is shown.
-/

namespace GoalReconciliation.Redaction

set_option autoImplicit false

def isScalar : Json → Bool
  | .list _ | .object _ => false
  | _ => true

def isObject : Json → Bool
  | .object _ => true
  | _ => false

mutual

/-- Two values that differ only in what stands under sensitive names: at any depth, or only as far as redaction reaches. -/
inductive Alike (anywhere : Bool) : Json → Json → Prop
  | scalar {value : Json} (h : isScalar value = true) : Alike anywhere value value
  | list {items others : List Json} (h : AlikeItems anywhere items others) : Alike anywhere (.list items) (.list others)
  | object {fields others : List (String × Json)} (h : AlikeFields anywhere fields others) :
      Alike anywhere (.object fields) (.object others)

/-- Items of which those that may differ do so only under sensitive names; within reach only objects may differ. -/
inductive AlikeItems (anywhere : Bool) : List Json → List Json → Prop
  | nil : AlikeItems anywhere [] []
  | same {item : Json} {rest others : List Json} (hrest : AlikeItems anywhere rest others) :
      AlikeItems anywhere (item :: rest) (item :: others)
  | alike {item other : Json} {rest others : List Json} (hreach : anywhere = true ∨ isObject item = true)
      (h : Alike anywhere item other) (hrest : AlikeItems anywhere rest others) :
      AlikeItems anywhere (item :: rest) (other :: others)

/-- Fields of the same names, with values that may differ freely where the name is sensitive. -/
inductive AlikeFields (anywhere : Bool) : List (String × Json) → List (String × Json) → Prop
  | nil : AlikeFields anywhere [] []
  | hidden {name : String} {value other : Json} {rest others : List (String × Json)} (hname : isSensitive name = true)
      (hrest : AlikeFields anywhere rest others) : AlikeFields anywhere ((name, value) :: rest) ((name, other) :: others)
  | shown {name : String} {value other : Json} {rest others : List (String × Json)} (hname : isSensitive name = false)
      (h : Alike anywhere value other) (hrest : AlikeFields anywhere rest others) :
      AlikeFields anywhere ((name, value) :: rest) ((name, other) :: others)

end

/-! ## What is shown -/

mutual

theorem Alike.refl (anywhere : Bool) : ∀ value : Json, Alike anywhere value value
  | .null => .scalar rfl
  | .bool _ => .scalar rfl
  | .integer _ => .scalar rfl
  | .real _ => .scalar rfl
  | .text _ => .scalar rfl
  | .list items => .list (AlikeItems.refl anywhere items)
  | .object fields => .object (AlikeFields.refl anywhere fields)

theorem AlikeItems.refl (anywhere : Bool) : ∀ items : List Json, AlikeItems anywhere items items
  | [] => .nil
  | _ :: rest => .same (AlikeItems.refl anywhere rest)

theorem AlikeFields.refl (anywhere : Bool) : ∀ fields : List (String × Json), AlikeFields anywhere fields fields
  | [] => .nil
  | (name, value) :: rest => by
      cases hname : isSensitive name with
      | true => exact .hidden hname (AlikeFields.refl anywhere rest)
      | false => exact .shown hname (Alike.refl anywhere value) (AlikeFields.refl anywhere rest)

end

mutual

/-- **Redaction changes nothing but what stands under sensitive names.** -/
theorem alike_redact : ∀ value : Json, Alike true value (redact value)
  | .object fields => .object (alike_redactFields fields)
  | .null => .scalar rfl
  | .bool _ => .scalar rfl
  | .integer _ => .scalar rfl
  | .real _ => .scalar rfl
  | .text _ => .scalar rfl
  | .list items => .refl true (.list items)

theorem alike_redactFields : ∀ fields : List (String × Json), AlikeFields true fields (redactFields fields)
  | [] => .nil
  | (name, value) :: rest => by
      rw [redactFields]
      cases hname : isSensitive name with
      | true => exact .hidden hname (alike_redactFields rest)
      | false => exact .shown hname (alike_redactValue value) (alike_redactFields rest)

theorem alike_redactValue : ∀ value : Json, Alike true value (redactValue value)
  | .list items => .list (alike_redactItems items)
  | .object fields => .object (alike_redactFields fields)
  | .null => .scalar rfl
  | .bool _ => .scalar rfl
  | .integer _ => .scalar rfl
  | .real _ => .scalar rfl
  | .text _ => .scalar rfl

theorem alike_redactItems : ∀ items : List Json, AlikeItems true items (redactItems items)
  | [] => .nil
  | item :: rest => .alike (.inl rfl) (alike_redact item) (alike_redactItems rest)

end

/-! ## What is hidden -/

mutual

theorem redact_of_alike : ∀ {value other : Json}, Alike false value other → isObject value = true →
    redact value = redact other
  | _, _, .scalar _, _ => rfl
  | _, _, .object h, _ => congrArg Json.object (redactFields_of_alike h)

theorem redactFields_of_alike : ∀ {fields others : List (String × Json)}, AlikeFields false fields others →
    redactFields fields = redactFields others
  | _, _, .nil => rfl
  | _, _, .hidden hname hrest => by
      rw [redactFields, redactFields, if_pos hname, if_pos hname, redactFields_of_alike hrest]
  | _, _, .shown hname h hrest => by
      rw [redactFields, redactFields, hname, redactValue_of_alike h, redactFields_of_alike hrest]

/-- Field values that differ within reach are redacted alike. -/
theorem redactValue_of_alike : ∀ {value other : Json}, Alike false value other → redactValue value = redactValue other
  | _, _, .scalar _ => rfl
  | _, _, .list h => congrArg Json.list (redactItems_of_alike h)
  | _, _, .object h => congrArg Json.object (redactFields_of_alike h)

theorem redactItems_of_alike : ∀ {items others : List Json}, AlikeItems false items others →
    redactItems items = redactItems others
  | _, _, .nil => rfl
  | _, _, .same hrest => by rw [redactItems, redactItems, redactItems_of_alike hrest]
  | _, _, .alike hreach h hrest => by
      rw [redactItems, redactItems, redact_of_alike h (hreach.resolve_left (by decide)), redactItems_of_alike hrest]

end

/-! ## What is told apart -/

theorem redact_of_not_object {value : Json} (h : isObject value = false) : redact value = value := by
  cases value with
  | object _ => cases h
  | _ => rfl

theorem isObject_redact (value : Json) : isObject (redact value) = isObject value := by
  cases value <;> rfl

theorem eq_of_redact {value other : Json} (hvalue : isObject value = false) (h : redact value = redact other) :
    value = other := by
  have hother : isObject other = false := by rw [← isObject_redact, ← h, isObject_redact, hvalue]
  rwa [redact_of_not_object hvalue, redact_of_not_object hother] at h

mutual

theorem alikeFields_of_redactFields : ∀ {fields others : List (String × Json)},
    redactFields fields = redactFields others → AlikeFields false fields others
  | [], [], _ => .nil
  | [], _ :: _, h => by simp [redactFields] at h
  | _ :: _, [], h => by simp [redactFields] at h
  | (name, value) :: rest, (_, other) :: others, h => by
      simp only [redactFields, List.cons.injEq, Prod.mk.injEq] at h
      obtain ⟨⟨rfl, hvalue⟩, hrest⟩ := h
      cases hname : isSensitive name with
      | true => exact .hidden hname (alikeFields_of_redactFields hrest)
      | false =>
        rw [hname] at hvalue
        exact .shown hname (alike_of_redactValue hvalue) (alikeFields_of_redactFields hrest)

/-- **Field values that are redacted alike differ within reach.** -/
theorem alike_of_redactValue : ∀ {value other : Json}, redactValue value = redactValue other → Alike false value other
  | .list _, other, h => by
      cases other with
      | list others => exact .list (alikeItems_of_redactItems (Json.list.inj h))
      | _ => cases h
  | .object _, other, h => by
      cases other with
      | object others => exact .object (alikeFields_of_redactFields (Json.object.inj h))
      | _ => cases h
  | .null, other, h => by cases other <;> first | exact .scalar rfl | cases h
  | .bool _, other, h => by cases other <;> cases h; exact .scalar rfl
  | .integer _, other, h => by cases other <;> cases h; exact .scalar rfl
  | .real _, other, h => by cases other <;> cases h; exact .scalar rfl
  | .text _, other, h => by cases other <;> cases h; exact .scalar rfl

theorem alikeItems_of_redactItems : ∀ {items others : List Json},
    redactItems items = redactItems others → AlikeItems false items others
  | [], [], _ => .nil
  | [], _ :: _, h => by simp [redactItems] at h
  | _ :: _, [], h => by simp [redactItems] at h
  | item :: rest, other :: others, h => by
      simp only [redactItems, List.cons.injEq] at h
      obtain ⟨hitem, hrest⟩ := h
      have hothers := alikeItems_of_redactItems hrest
      cases hobject : isObject item with
      | false => exact eq_of_redact hobject hitem ▸ .same hothers
      | true =>
        match item, other, hobject, hitem with
        | .object _, .object _, _, hitem =>
          exact .alike (.inr rfl) (.object (alikeFields_of_redactFields (Json.object.inj hitem))) hothers

end

/-! ## The whole -/

/-- **Two objects are redacted alike if and only if they differ within reach, and redaction changes an object only under
sensitive names.** -/
theorem redact_eq_iff (fields others : List (String × Json)) :
    (redact (.object fields) = redact (.object others) ↔ Alike false (.object fields) (.object others)) ∧
      Alike true (.object fields) (redact (.object fields)) :=
  ⟨⟨fun h => .object (alikeFields_of_redactFields (Json.object.inj h)), fun h => redact_of_alike h rfl⟩, alike_redact _⟩

/-- A password in a list that is an item of a list. -/
def within (password : String) : Json :=
  .object [("a", .list [.list [.object [("password", .text password)]]])]

/-- **What stands under a sensitive name in a list within a list is shown**: the two objects differ in nothing else. -/
theorem redact_leaks : Alike true (within "x") (within "y") ∧ redact (within "x") ≠ redact (within "y") := by
  have hshown : isSensitive "a" = false := by decide
  refine ⟨.object (.shown hshown ?_ .nil), by simp [within, redact, redactFields, redactValue, redactItems, hshown]⟩
  refine .list (.alike (.inl rfl) (.list (.alike (.inl rfl) (.object ?_) .nil)) .nil)
  exact .hidden (by decide) .nil

end GoalReconciliation.Redaction
