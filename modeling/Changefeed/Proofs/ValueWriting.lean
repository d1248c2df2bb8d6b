import Changefeed.Proofs.ValueReading

/-!
# What is written of a value

Writing a value directly gives the text of its document, in whatever order the members of its
objects are listed. The value of that document is the same but for the numbers that are not finite,
which become null at every depth (`Value.ofText?_text_listed`).
-/

namespace Changefeed.Value

mutual

/-- The other value is the same, but may list the members of its objects in another order. -/
def ListedAs : Value → Value → Prop
  | .arr items, w => ∃ ws, w = .arr ws ∧ ItemsListedAs items ws
  | .obj members, w => ∃ ws ms, w = .obj ws ∧ ws.Perm ms ∧ MembersListedAs members ms
  | v, w => w = v

def ItemsListedAs : List Value → List Value → Prop
  | [], ws => ws = []
  | x :: xs, ws => ∃ w rest, ws = w :: rest ∧ x.ListedAs w ∧ ItemsListedAs xs rest

def MembersListedAs : List (String × Value) → List (String × Value) → Prop
  | [], ws => ws = []
  | (k, x) :: xs, ws => ∃ w rest, ws = (k, w) :: rest ∧ x.ListedAs w ∧ MembersListedAs xs rest

end

mutual

theorem listedAs_self : ∀ v : Value, v.ListedAs v
  | .null => rfl
  | .bool _ => rfl
  | .int _ => rfl
  | .float _ => rfl
  | .str _ => rfl
  | .arr items => ⟨_, rfl, itemsListedAs_self items⟩
  | .obj members => ⟨_, _, rfl, .refl _, membersListedAs_self members⟩

theorem itemsListedAs_self : ∀ items, ItemsListedAs items items
  | [] => rfl
  | x :: xs => ⟨_, _, rfl, listedAs_self x, itemsListedAs_self xs⟩

theorem membersListedAs_self : ∀ members, MembersListedAs members members
  | [] => rfl
  | (_, x) :: xs => ⟨_, _, rfl, listedAs_self x, membersListedAs_self xs⟩

end

theorem membersToJson_eq_map (members : List (String × Value)) :
    membersToJson members = members.map fun m => (m.1, m.2.toJson) := by
  induction members with
  | nil => rfl
  | cons m members ih => rw [membersToJson, ih, List.map_cons]

mutual

theorem ListedAs.hasDocument : ∀ {v w : Value}, v.ListedAs w → v.HasDocument w.toJson
  | .null, _, rfl => rfl
  | .bool _, _, rfl => rfl
  | .int _, _, rfl => rfl
  | .float _, _, rfl => rfl
  | .str _, _, rfl => rfl
  | .arr _, _, ⟨_, rfl, hitems⟩ => ⟨_, rfl, ItemsListedAs.hasItems hitems⟩
  | .obj _, _, ⟨ws, ms, rfl, hperm, hmembers⟩ => by
    refine ⟨_, _, rfl, ?_, MembersListedAs.hasMembers hmembers⟩
    simp only [membersToJson_eq_map]
    exact hperm.map _

theorem ItemsListedAs.hasItems : ∀ {items ws : List Value}, ItemsListedAs items ws →
    HasItems items (itemsToJson ws)
  | [], _, rfl => rfl
  | _ :: _, _, ⟨_, _, rfl, hx, hxs⟩ =>
    ⟨_, _, rfl, ListedAs.hasDocument hx, ItemsListedAs.hasItems hxs⟩

theorem MembersListedAs.hasMembers : ∀ {members ws : List (String × Value)},
    MembersListedAs members ws → HasMembers members (membersToJson ws)
  | [], _, rfl => rfl
  | (_, _) :: _, _, ⟨_, _, rfl, hx, hxs⟩ =>
    ⟨_, _, rfl, ListedAs.hasDocument hx, MembersListedAs.hasMembers hxs⟩

end

mutual

/-- What documents can express of a value: null takes the place of the numbers that are not
finite. -/
def expressible : Value → Value
  | .float x => if x.isFinite then .float x else .null
  | .arr items => .arr (expressibleItems items)
  | .obj members => .obj (expressibleMembers members)
  | v => v

def expressibleItems : List Value → List Value
  | [] => []
  | x :: xs => x.expressible :: expressibleItems xs

def expressibleMembers : List (String × Value) → List (String × Value)
  | [] => []
  | (k, x) :: xs => (k, x.expressible) :: expressibleMembers xs

end

theorem map_fst_expressibleMembers (members : List (String × Value)) :
    (expressibleMembers members).map Prod.fst = members.map Prod.fst := by
  induction members with
  | nil => rfl
  | cons m members ih => rw [expressibleMembers, List.map_cons, List.map_cons, ih]

theorem toJson_expressible_float (x : Double) :
    (Value.float x).expressible.toJson = (Value.float x).toJson := by
  cases x <;> rfl

mutual

theorem HasDocument.expressible : ∀ {v : Value} {j : Json}, v.HasDocument j →
    v.expressible.HasDocument j
  | .null, _, h => h
  | .bool _, _, h => h
  | .int _, _, h => h
  | .float x, _, rfl => by
    rw [← toJson_expressible_float]
    exact hasDocument_toJson _
  | .str _, _, h => h
  | .arr _, _, ⟨_, rfl, hitems⟩ => ⟨_, rfl, HasItems.expressible hitems⟩
  | .obj _, _, ⟨_, _, rfl, hperm, hmembers⟩ => ⟨_, _, rfl, hperm, HasMembers.expressible hmembers⟩

theorem HasItems.expressible : ∀ {items : List Value} {js : List Json}, HasItems items js →
    HasItems (expressibleItems items) js
  | [], _, h => h
  | _ :: _, _, ⟨_, _, rfl, hx, hxs⟩ =>
    ⟨_, _, rfl, HasDocument.expressible hx, HasItems.expressible hxs⟩

theorem HasMembers.expressible : ∀ {members : List (String × Value)} {ms : List (String × Json)},
    HasMembers members ms → HasMembers (expressibleMembers members) ms
  | [], _, h => h
  | (_, _) :: _, _, ⟨_, _, rfl, hx, hxs⟩ =>
    ⟨_, _, rfl, HasDocument.expressible hx, HasMembers.expressible hxs⟩

end

mutual

theorem expressible_eq_self_iff : ∀ {v : Value}, v.expressible = v ↔ v.All IsFinite
  | .null => by simp [Value.expressible, All, IsFinite]
  | .bool _ => by simp [Value.expressible, All, IsFinite]
  | .int _ => by simp [Value.expressible, All, IsFinite]
  | .float x => by simp [Value.expressible, All, IsFinite]
  | .str _ => by simp [Value.expressible, All, IsFinite]
  | .arr items => by
    simp [Value.expressible, All, IsFinite, @expressibleItems_eq_self_iff items]
  | .obj members => by
    simp [Value.expressible, All, IsFinite, @expressibleMembers_eq_self_iff members]

theorem expressibleItems_eq_self_iff : ∀ {items : List Value},
    expressibleItems items = items ↔ AllItems IsFinite items
  | [] => by simp [expressibleItems, AllItems]
  | x :: xs => by
    simp [expressibleItems, AllItems, expressible_eq_self_iff, expressibleItems_eq_self_iff]

theorem expressibleMembers_eq_self_iff : ∀ {members : List (String × Value)},
    expressibleMembers members = members ↔ AllMembers IsFinite members
  | [] => by simp [expressibleMembers, AllMembers]
  | (k, x) :: xs => by
    simp [expressibleMembers, AllMembers, expressible_eq_self_iff, expressibleMembers_eq_self_iff]

end

mutual

theorem isFinite_expressible : ∀ v : Value, v.expressible.All IsFinite
  | .null => trivial
  | .bool _ => trivial
  | .int _ => trivial
  | .float x => by cases x <;> simp [Value.expressible, Double.isFinite, All, IsFinite]
  | .str _ => trivial
  | .arr items => ⟨trivial, isFinite_expressibleItems items⟩
  | .obj members => ⟨trivial, isFinite_expressibleMembers members⟩

theorem isFinite_expressibleItems : ∀ items, AllItems IsFinite (expressibleItems items)
  | [] => trivial
  | x :: xs => ⟨isFinite_expressible x, isFinite_expressibleItems xs⟩

theorem isFinite_expressibleMembers : ∀ members, AllMembers IsFinite (expressibleMembers members)
  | [] => trivial
  | (_, x) :: xs => ⟨isFinite_expressible x, isFinite_expressibleMembers xs⟩

end

mutual

theorem isOrdered_expressible : ∀ {v : Value}, v.All IsOrdered → v.expressible.All IsOrdered
  | .null, h => h
  | .bool _, h => h
  | .int _, h => h
  | .float x, _ => by cases x <;> trivial
  | .str _, h => h
  | .arr _, h => ⟨trivial, isOrdered_expressibleItems h.2⟩
  | .obj members, h => by
    refine ⟨?_, isOrdered_expressibleMembers h.2⟩
    have hsorted : Keyed.Sorted members := h.1
    show Keyed.Sorted (expressibleMembers members)
    rw [Keyed.Sorted, ← List.pairwise_map, map_fst_expressibleMembers, List.pairwise_map]
    exact hsorted

theorem isOrdered_expressibleItems : ∀ {items : List Value}, AllItems IsOrdered items →
    AllItems IsOrdered (expressibleItems items)
  | [], _ => trivial
  | _ :: _, h => ⟨isOrdered_expressible h.1, isOrdered_expressibleItems h.2⟩

theorem isOrdered_expressibleMembers : ∀ {members : List (String × Value)},
    AllMembers IsOrdered members → AllMembers IsOrdered (expressibleMembers members)
  | [], _ => trivial
  | (_, _) :: _, h => ⟨isOrdered_expressible h.1, isOrdered_expressibleMembers h.2⟩

end

theorem HasDocument.ofJson? {v : Value} {j : Json} (h : v.HasDocument j) (hv : v.All IsOrdered) :
    Value.ofJson? j = some v.expressible := by
  rw [← choose?_eq_ofJson?]
  exact h.expressible.choose? (isFinite_expressible v) (isOrdered_expressible hv)

theorem text_toJson (v : Value) : v.toJson.text = v.text := by
  rw [Json.text, write_toJson, text]

theorem HasDocument.ofText?_text {v : Value} {j : Json} (h : v.HasDocument j)
    (hlegible : v.All IsLegible) : Json.ofText? j.text = some j :=
  Json.ofText?_text (h.isNormal hlegible)

/-- Both ways of writing a value express the same, and all but the numbers that are not finite. The
members of its objects may be listed in any order; their names are distinct, and in order here. The
text is read as that document if its numbers are legible. -/
theorem ofText?_text_listed {v : Value} (hv : v.All IsOrdered) :
    v.text = v.toJson.text ∧ ofJson? v.toJson = some v.expressible ∧
    (∀ w, v.ListedAs w → w.text = w.toJson.text ∧ v.HasDocument w.toJson ∧
      ofJson? w.toJson = some v.expressible ∧
      (v.All IsLegible → Json.ofText? w.text = some w.toJson)) ∧
    (v.expressible = v ↔ v.All IsFinite) := by
  refine ⟨v.text_toJson.symm, (hasDocument_toJson v).ofJson? hv, fun w hw => ?_,
    expressible_eq_self_iff⟩
  refine ⟨w.text_toJson.symm, hw.hasDocument, hw.hasDocument.ofJson? hv, fun hlegible => ?_⟩
  rw [← w.text_toJson]
  exact hw.hasDocument.ofText?_text hlegible

def unbounded : Value :=
  .arr [.float .nan, .obj [("a", .float (.infinite true)), ("b", .int 1)]]

def unboundedRelisted : Value :=
  .arr [.float .nan, .obj [("b", .int 1), ("a", .float (.infinite true))]]

theorem ofText?_text_listed_unbounded :
    unbounded.All IsOrdered ∧ unbounded.ListedAs unboundedRelisted ∧
      unboundedRelisted.text = unboundedRelisted.toJson.text ∧
      Json.ofText? unboundedRelisted.text = some unboundedRelisted.toJson ∧
      ofJson? unboundedRelisted.toJson =
        some (.arr [.null, .obj [("a", .null), ("b", .int 1)]]) := by
  have hordered : unbounded.All IsOrdered := by
    simp only [unbounded, All, AllItems, AllMembers, IsOrdered, Keyed.Sorted]
    decide
  have hlisted : unbounded.ListedAs unboundedRelisted :=
    ⟨_, rfl, _, _, rfl, rfl, _, _, rfl, ⟨_, _, rfl, .swap _ _ _, membersListedAs_self _⟩, rfl⟩
  have hlegible : unbounded.All IsLegible := by
    simp [unbounded, All, AllItems, AllMembers, IsLegible, Double.isFinite]
  obtain ⟨htext, -, hvalue, hread⟩ := (ofText?_text_listed hordered).2.2.1 _ hlisted
  exact ⟨hordered, hlisted, htext, hread hlegible, hvalue⟩

end Changefeed.Value
