import TrainingCollar.Validation

/-! # The order of numbers

Numbers are ordered by their exact values, whatever their kinds. A NaN has no place in the order, so
a number that compares at all has one, and on such numbers the order is total and transitive.
`Numeric` carries this over to values, among which truth values count as numbers.
-/

namespace TrainingCollar

namespace Place

theorem le_refl (p : Place) : p.le p = true := by
  cases p <;> simp [le]

theorem le_trans {p q r : Place} (first : p.le q = true) (second : q.le r = true) :
    p.le r = true := by
  cases p <;> cases q <;> cases r <;> simp_all [le]
  omega

theorem le_total (p q : Place) : p.le q = true ∨ q.le p = true := by
  cases p <;> cases q <;> simp [le]
  omega

end Place

namespace Number

theorem le_eq_true_iff {a b : Number} :
    a.le b = true ↔ ∃ p q, a.place = some p ∧ b.place = some q ∧ p.le q = true := by
  unfold le
  cases a.place <;> cases b.place <;> simp

theorem le_trans {a b c : Number} (first : a.le b = true) (second : b.le c = true) :
    a.le c = true := by
  obtain ⟨p, q, atP, atQ, below⟩ := le_eq_true_iff.mp first
  obtain ⟨q', r, atQ', atR, above⟩ := le_eq_true_iff.mp second
  obtain rfl : q = q' := Option.some.inj (atQ.symm.trans atQ')
  exact le_eq_true_iff.mpr ⟨p, r, atP, atR, Place.le_trans below above⟩

end Number

/-- A number with a place in the order. -/
def Value.Numeric (v : Value) : Prop := ∃ n p, v.number? = some n ∧ n.place = some p

namespace Value

variable {v w u : Value}

/-- Numbers are compared as such: a number is no text and no sequence. -/
theorem le?_of_number? {a b : Number} (left : v.number? = some a) (right : w.number? = some b) :
    v.le? w = some (a.le b) := by
  cases v with
  | bool _ | int _ | float _ => simp only [le?, left, right]
  | _ => simp [number?] at left

theorem numeric_of_le?_left {a : Number} (left : v.number? = some a)
    (ordered : v.le? w = some true) : w.Numeric := by
  have right : ∃ b, w.number? = some b := by
    cases v with
    | bool _ | int _ | float _ => cases w <;> simp_all [le?, number?]
    | _ => simp [number?] at left
  obtain ⟨b, right⟩ := right
  rw [le?_of_number? left right] at ordered
  obtain ⟨_, q, _, atQ, _⟩ := Number.le_eq_true_iff.mp (Option.some.inj ordered)
  exact ⟨b, q, right, atQ⟩

theorem Numeric.le?_total (left : v.Numeric) (right : w.Numeric) :
    v.le? w = some true ∨ w.le? v = some true := by
  obtain ⟨a, p, isA, atP⟩ := left
  obtain ⟨b, q, isB, atQ⟩ := right
  rw [le?_of_number? isA isB, le?_of_number? isB isA]
  rcases Place.le_total p q with below | above
  · exact .inl (congrArg some (Number.le_eq_true_iff.mpr ⟨p, q, atP, atQ, below⟩))
  · exact .inr (congrArg some (Number.le_eq_true_iff.mpr ⟨q, p, atQ, atP, above⟩))

theorem Numeric.le?_trans (left : v.Numeric) (first : v.le? w = some true)
    (second : w.le? u = some true) : v.le? u = some true := by
  obtain ⟨a, p, isA, atP⟩ := left
  obtain ⟨b, q, isB, atQ⟩ := numeric_of_le?_left isA first
  obtain ⟨c, r, isC, atR⟩ := numeric_of_le?_left isB second
  rw [le?_of_number? isA isB] at first
  rw [le?_of_number? isB isC] at second
  rw [le?_of_number? isA isC]
  exact congrArg some (Number.le_trans (Option.some.inj first) (Option.some.inj second))

end Value

theorem atMost_eq_ok_iff {low high : Value} {answer : Bool} :
    atMost low high = .ok answer ↔ low.le? high = some answer := by
  unfold atMost
  cases low.le? high <;> simp

end TrainingCollar
