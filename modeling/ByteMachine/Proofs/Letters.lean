/-!
# Letter case

Changing the case of a character touches the 26 letters of one case and leaves
every other character alone.  A fact about a character and its other case
therefore needs to be looked at for those letters only.
-/

namespace ByteMachine
namespace Letters

/-- A fact about all characters from one to another needs to be looked at for
each of them only. -/
theorem forall_between
    {p : Char → Prop} {low high c : Char} (hlow : low ≤ c) (hhigh : c ≤ high)
    (hall : ∀ k ∈ List.range' low.toNat (high.toNat + 1 - low.toNat),
      p (Char.ofNat k)) : p c := by
  have hfrom : low.toNat ≤ c.toNat := hlow
  have hto : c.toNat ≤ high.toNat := hhigh
  have hrange :
      c.toNat ∈ List.range' low.toNat (high.toNat + 1 - low.toNat) := by
    rw [List.mem_range'_1]
    omega
  have hvalue := hall c.toNat hrange
  rwa [Char.ofNat_toNat] at hvalue

theorem toLower_induction
    {p : Char → Char → Prop} (hsame : ∀ c, p c c)
    (hletter : ∀ k ∈ List.range' 65 26,
      p (Char.ofNat k) (Char.ofNat k).toLower) (c : Char) :
    p c c.toLower := by
  by_cases hc : c.val ≥ 'A'.val ∧ c.val ≤ 'Z'.val
  · exact forall_between (p := fun c => p c c.toLower) hc.1 hc.2 hletter
  · have hlower : c.toLower = c := dif_neg hc
    rw [hlower]
    exact hsame c

theorem toUpper_induction
    {p : Char → Char → Prop} (hsame : ∀ c, p c c)
    (hletter : ∀ k ∈ List.range' 97 26,
      p (Char.ofNat k) (Char.ofNat k).toUpper) (c : Char) :
    p c c.toUpper := by
  by_cases hc : 'a'.val ≤ c.val ∧ c.val ≤ 'z'.val
  · exact forall_between (p := fun c => p c c.toUpper) hc.1 hc.2 hletter
  · have hupper : c.toUpper = c := dif_neg hc
    rw [hupper]
    exact hsame c

theorem isAlphanum_toLower (c : Char) :
    c.toLower.isAlphanum = c.isAlphanum :=
  toLower_induction (p := fun c lower => lower.isAlphanum = c.isAlphanum)
    (fun _ => rfl) (by decide) c

theorem isAlphanum_toUpper (c : Char) :
    c.toUpper.isAlphanum = c.isAlphanum :=
  toUpper_induction (p := fun c upper => upper.isAlphanum = c.isAlphanum)
    (fun _ => rfl) (by decide) c

end Letters
end ByteMachine
