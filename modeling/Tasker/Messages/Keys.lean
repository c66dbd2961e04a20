import Tasker.Screens.Messages

/-!
The pair of users under which a conversation is looked for and stored.

* `ascending`, `key`: the order of a device, which compares texts as its locale
  does, and the sorted pair of the page that writes to a user.
* `key_eq`: the pair has the receiver first exactly if they rank strictly before
  the sender.
* `sameKey_iff`: two users on two devices get the same pair if and only if the one
  device ranks the first strictly before the second exactly when the other one
  does not rank them the other way round.
* `sameKeys_iff`: all users do if and only if the devices rank them in the same
  way and no two of them as equal.
-/

namespace Tasker.NewMessageViewController

/-- `localizedCompare($1) == .orderedAscending` on a device. -/
def ascending (localizedCompare : String → String → Ordering) (a b : String) : Bool :=
  localizedCompare a b == .lt

/-- The key of a conversation on the page on which `uid` writes to `sendToID`. -/
def key (localizedCompare : String → String → Ordering) (uid sendToID : String) :
    String × String :=
  let vc := viewDidLoad (ascending localizedCompare) uid sendToID
  (vc.user1ID, vc.user2ID)

variable {cmp cmp' : String → String → Ordering} {a b : String}

/-- The sender comes first unless the receiver ranks strictly before them. -/
lemma key_eq (cmp : String → String → Ordering) (a b : String) :
    key cmp a b = if cmp b a = .lt then (b, a) else (a, b) := by
  rw [key, viewDidLoad, user1ID, user2ID, sorted_pair]
  simp only [ascending, beq_iff_eq]
  split <;> rfl

/-- **The key of a conversation**: `a`, who writes to `b`, gets the same key as `b`,
who writes to `a`, if and only if the device of `b` ranks `a` strictly before `b`
exactly when that of `a` does not rank `b` strictly before `a`. -/
theorem sameKey_iff [Std.OrientedCmp cmp] [Std.OrientedCmp cmp'] (hab : a ≠ b) :
    key cmp a b = key cmp' b a ↔ (cmp' a b = .lt ↔ (cmp a b).isLE) := by
  have hswap : cmp a b = (cmp b a).swap := Std.OrientedCmp.eq_swap
  have hle : (cmp a b).isLE = true ↔ ¬ cmp b a = .lt := by
    rw [hswap]
    cases cmp b a <;> simp
  rw [key_eq, key_eq, hle]
  by_cases hfirst : cmp b a = .lt <;> by_cases hsecond : cmp' a b = .lt <;>
    simp [hfirst, hsecond, hab, hab.symm]

/-- All users get the same keys on two devices if and only if the devices rank them
in the same way, and no two of them as equal. -/
theorem sameKeys_iff [Std.OrientedCmp cmp] [Std.OrientedCmp cmp'] :
    (∀ a b, a ≠ b → key cmp a b = key cmp' b a) ↔
      ∀ a b, a ≠ b → cmp a b = cmp' a b ∧ cmp a b ≠ .eq := by
  constructor
  · intro h a b hab
    have hone := (sameKey_iff hab).mp (h a b hab)
    have hother := (sameKey_iff hab.symm).mp (h b a hab.symm)
    have hswap : cmp b a = (cmp a b).swap := Std.OrientedCmp.eq_swap
    have hswap' : cmp' b a = (cmp' a b).swap := Std.OrientedCmp.eq_swap
    rw [hswap, hswap'] at hother
    cases hcmp : cmp a b with
    | lt => cases hcmp' : cmp' a b <;> simp_all
    -- ranked as equal on one device, each of the two would have to be first on the other
    | eq => cases hcmp' : cmp' a b <;> simp_all
    | gt => cases hcmp' : cmp' a b <;> simp_all
  · intro h a b hab
    obtain ⟨hsame, hne⟩ := h a b hab
    rw [sameKey_iff hab, ← hsame]
    cases hcmp : cmp a b with
    | lt => simp
    | eq => exact absurd hcmp hne
    | gt => simp

/-! ### An English and a Danish device -/

/-- Texts compared letter by letter. -/
def english (a b : String) : Ordering := compareOn String.toList a b

/-- Two letters `a` are one letter, after `z`. -/
def foldAa : List Char → List Char
  | 'a' :: 'a' :: cs => 'å' :: foldAa cs
  | c :: cs => c :: foldAa cs
  | [] => []

/-- Texts compared so. -/
def danish (a b : String) : Ordering := compareOn (fun s => foldAa s.toList) a b

instance : Std.TransCmp english := inferInstanceAs (Std.TransCmp (compareOn _))

instance : Std.TransCmp danish := inferInstanceAs (Std.TransCmp (compareOn _))

theorem sameKey_iff_english :
    key english "aa7" "zb3" = key english "zb3" "aa7" ↔
      (english "aa7" "zb3" = .lt ↔ (english "aa7" "zb3").isLE) :=
  sameKey_iff (by decide)

/-- The user of an English device and that of a Danish one get different keys. -/
theorem english_danish_differ :
    Std.TransCmp english ∧ Std.TransCmp danish ∧ "aa7" ≠ "zb3" ∧
    key english "aa7" "zb3" = ("aa7", "zb3") ∧ key danish "zb3" "aa7" = ("zb3", "aa7") ∧
    key english "aa7" "zb3" ≠ key danish "zb3" "aa7" := by
  refine ⟨inferInstance, inferInstance, by decide, ?_, ?_, ?_⟩
  · rw [key_eq]; decide
  · rw [key_eq]; decide
  · rw [key_eq, key_eq]; decide

end Tasker.NewMessageViewController
