import Changefeed.Proofs.DocumentText
import Changefeed.Value
import Mathlib.Order.MinMax

/-!
# Values and their documents

A value is written as the text of its document (`Value.write_toJson`). If all its numbers are finite
and its objects are ordered by name, trying one kind of value after the other gives the value back
from that document, in whatever order the members of its objects stand
(`Value.HasDocument.choose?`): an integer is tried before a number with a fraction, and every number
with a fraction is written as one. What is read from a document by its form meets both conditions
(`Value.isProper_of_ofJson?`). The text of the document is read as the same document only if its
numbers are legible, since the doubles of literals are not always the nearest.
-/

namespace Changefeed

namespace Keyed

variable {α : Type}

theorem sorted_ofList (l : List (String × α)) : Sorted (ofList l) := by
  suffices h : ∀ acc, Sorted acc → Sorted (l.foldl (fun acc p => insert p.1 p.2 acc) acc) from
    h [] List.Pairwise.nil
  induction l with
  | nil => exact fun _ h => h
  | cons p l ih => exact fun acc h => ih _ (h.insert p.1 p.2)

theorem mem_ofList {l : List (String × α)} {p : String × α} (h : p ∈ ofList l) : p ∈ l := by
  suffices hacc : ∀ acc, p ∈ l.foldl (fun acc p => insert p.1 p.2 acc) acc → p ∈ acc ∨ p ∈ l by
    simpa using hacc [] h
  clear h
  induction l with
  | nil => exact fun acc h => .inl h
  | cons q l ih =>
    intro acc h
    rcases ih _ h with h | h
    · exact (mem_insert h).elim (fun h => .inr (h ▸ List.mem_cons_self)) .inl
    · exact .inr (List.mem_cons_of_mem q h)

theorem insert_perm {key : String} {l : List (String × α)} (h : key ∉ l.map Prod.fst) (value : α) :
    (insert key value l).Perm ((key, value) :: l) := by
  induction l with
  | nil => exact .refl _
  | cons p l ih =>
    obtain ⟨k, x⟩ := p
    rw [List.map_cons, List.mem_cons, not_or] at h
    rw [insert]
    split
    next => exact .refl _
    next =>
      rw [if_neg h.1]
      exact ((ih h.2).cons (k, x)).trans (.swap ..)

theorem ofList_perm {l : List (String × α)} (h : (l.map Prod.fst).Nodup) : (ofList l).Perm l := by
  suffices hacc : ∀ acc, ((acc ++ l).map Prod.fst).Nodup →
      (l.foldl (fun acc p => insert p.1 p.2 acc) acc).Perm (acc ++ l) from hacc [] h
  clear h
  induction l with
  | nil => simp
  | cons p l ih =>
    intro acc h
    have hperm : (acc ++ p :: l).Perm (p :: acc ++ l) := List.perm_middle
    have hnodup := (hperm.map Prod.fst).nodup_iff.1 h
    have hfresh : p.1 ∉ acc.map Prod.fst := by
      intro hmem
      rw [List.cons_append, List.map_cons, List.nodup_cons, List.map_append] at hnodup
      exact hnodup.1 (List.mem_append_left _ hmem)
    have hinsert := (insert_perm hfresh p.2).append_right l
    exact (ih _ ((hinsert.map Prod.fst).nodup_iff.2 hnodup)).trans (hinsert.trans hperm.symm)

theorem Sorted.nodup_keys {l : List (String × α)} (h : Sorted l) : (l.map Prod.fst).Nodup := by
  rw [List.Nodup, List.pairwise_map]
  refine List.Pairwise.imp ?_ h
  intro a b hlt heq
  exact String.lt_irrefl _ (heq ▸ hlt)

theorem Sorted.eq_of_perm {l l' : List (String × α)} (h : Sorted l) (h' : Sorted l')
    (hperm : l.Perm l') : l = l' := by
  refine hperm.eq_of_pairwise (fun a b _ _ hab hba => ?_) h h'
  exact absurd (String.lt_trans hab hba) (String.lt_irrefl _)

theorem ofList_of_perm {l l' : List (String × α)} (h : l'.Perm l) (hl : Sorted l) :
    ofList l' = l := by
  have hnodup : (l'.map Prod.fst).Nodup := (h.map Prod.fst).nodup_iff.2 hl.nodup_keys
  exact (sorted_ofList l').eq_of_perm hl ((ofList_perm hnodup).trans h)

end Keyed

theorem Integer.ofInt?_toInt (i : Int64) : Integer.ofInt? i.toInt = some i := by
  have hge := i.le_toInt
  have hlt := i.toInt_lt
  rw [ofInt?, if_pos ⟨by simpa using hge, by simpa using hlt⟩, Int64.ofInt_toInt]

namespace Value

mutual

/-- What is said of a value is true of it and of all values in it. -/
def All (p : Value → Prop) : Value → Prop
  | .arr items => p (.arr items) ∧ AllItems p items
  | .obj members => p (.obj members) ∧ AllMembers p members
  | v => p v

def AllItems (p : Value → Prop) : List Value → Prop
  | [] => True
  | x :: xs => x.All p ∧ AllItems p xs

def AllMembers (p : Value → Prop) : List (String × Value) → Prop
  | [] => True
  | (_, x) :: xs => x.All p ∧ AllMembers p xs

end

theorem allMembers_iff {p : Value → Prop} {members : List (String × Value)} :
    AllMembers p members ↔ ∀ m ∈ members, m.2.All p := by
  induction members with
  | nil => simp [AllMembers]
  | cons m members ih => simp [AllMembers, ih]

def IsFinite : Value → Prop
  | .float x => x.isFinite = true
  | _ => True

/-- A finite number survives its text. -/
def IsLegible : Value → Prop
  | .float x => x.isFinite = true → x.IsLegible
  | _ => True

def IsOrdered : Value → Prop
  | .obj members => Keyed.Sorted members
  | _ => True

def depth (v : Value) : Nat := v.toJson.depth

theorem isNormal_floatJson {x : Double} (h : x.isFinite = true → x.IsLegible) :
    (floatJson x).IsNormal := by
  unfold floatJson
  split
  next hfinite => exact h hfinite
  next => trivial

theorem write_floatJson (x : Double) : (floatJson x).write = writeFloat x := by
  cases x <;> rfl

theorem write_int (i : Int64) : (toJson (.int i)).write = Integer.write i := by
  rw [Integer.write, Digits.ofInt]
  split
  next h => simp [toJson, Json.write, Json.Number.write, Double.sign, h]
  next h => simp [toJson, Json.write, Json.Number.write, Double.sign, h]

mutual

theorem write_toJson : ∀ v : Value, v.toJson.write = v.write
  | .null => rfl
  | .bool _ => rfl
  | .int i => write_int i
  | .float x => write_floatJson x
  | .str _ => rfl
  | .arr items => by rw [toJson, Json.write, write, write_itemsToJson]
  | .obj members => by rw [toJson, Json.write, write, write_membersToJson]

theorem write_itemsToJson : ∀ items, Json.writeItems (itemsToJson items) = writeItems items
  | [] => rfl
  | x :: xs => by rw [itemsToJson, Json.writeItems, writeItems, write_toJson, write_itemsToJson]

theorem write_membersToJson :
    ∀ members, Json.writeMembers (membersToJson members) = writeMembers members
  | [] => rfl
  | (k, x) :: xs => by
    rw [membersToJson, Json.writeMembers, writeMembers, write_toJson, write_membersToJson]

end

mutual

/-- The documents of a value: the members of an object stand in any order. -/
def HasDocument : Value → Json → Prop
  | .arr items, j => ∃ js, j = .arr js ∧ HasItems items js
  | .obj members, j => ∃ js ms, j = .obj js ∧ js.Perm ms ∧ HasMembers members ms
  | v, j => j = v.toJson

def HasItems : List Value → List Json → Prop
  | [], js => js = []
  | x :: xs, js => ∃ j rest, js = j :: rest ∧ x.HasDocument j ∧ HasItems xs rest

def HasMembers : List (String × Value) → List (String × Json) → Prop
  | [], ms => ms = []
  | (k, x) :: xs, ms => ∃ j rest, ms = (k, j) :: rest ∧ x.HasDocument j ∧ HasMembers xs rest

end

mutual

theorem hasDocument_toJson : ∀ v : Value, v.HasDocument v.toJson
  | .null => rfl
  | .bool _ => rfl
  | .int _ => rfl
  | .float _ => rfl
  | .str _ => rfl
  | .arr items => ⟨_, rfl, hasItems_itemsToJson items⟩
  | .obj members => ⟨_, _, rfl, .refl _, hasMembers_membersToJson members⟩

theorem hasItems_itemsToJson : ∀ items, HasItems items (itemsToJson items)
  | [] => rfl
  | x :: xs => ⟨_, _, rfl, hasDocument_toJson x, hasItems_itemsToJson xs⟩

theorem hasMembers_membersToJson : ∀ members, HasMembers members (membersToJson members)
  | [] => rfl
  | (_, x) :: xs => ⟨_, _, rfl, hasDocument_toJson x, hasMembers_membersToJson xs⟩

end

mutual

theorem HasDocument.isNormal : ∀ {v : Value} {j : Json}, v.HasDocument j → v.All IsLegible →
    j.IsNormal
  | .null, _, rfl, _ => trivial
  | .bool _, _, rfl, _ => trivial
  | .int _, _, rfl, _ => trivial
  | .float _, _, rfl, h => isNormal_floatJson h
  | .str _, _, rfl, _ => trivial
  | .arr _, _, ⟨_, rfl, hitems⟩, h => HasItems.isNormal hitems h.2
  | .obj _, _, ⟨_, _, rfl, hperm, hmembers⟩, h => by
    have hnormal := HasMembers.isNormal hmembers h.2
    rw [Json.isNormalMembers_iff] at hnormal
    exact Json.isNormalMembers_iff.2 fun m hm => hnormal m (hperm.subset hm)

theorem HasItems.isNormal : ∀ {items : List Value} {js : List Json}, HasItems items js →
    AllItems IsLegible items → Json.IsNormalItems js
  | [], _, rfl, _ => trivial
  | _ :: _, _, ⟨_, _, rfl, hx, hxs⟩, h =>
    ⟨HasDocument.isNormal hx h.1, HasItems.isNormal hxs h.2⟩

theorem HasMembers.isNormal : ∀ {members : List (String × Value)} {ms : List (String × Json)},
    HasMembers members ms → AllMembers IsLegible members → Json.IsNormalMembers ms
  | [], _, rfl, _ => trivial
  | (_, _) :: _, _, ⟨_, _, rfl, hx, hxs⟩, h =>
    ⟨HasDocument.isNormal hx h.1, HasMembers.isNormal hxs h.2⟩

end

theorem depthMembers_perm {ms ms' : List (String × Json)} (h : ms.Perm ms') :
    Json.depthMembers ms = Json.depthMembers ms' := by
  induction h with
  | nil => rfl
  | cons m h ih => simp only [Json.depthMembers, ih]
  | swap m m' ms => exact max_left_comm ..
  | trans h h' ih ih' => exact ih.trans ih'

mutual

theorem HasDocument.depth_eq : ∀ {v : Value} {j : Json}, v.HasDocument j → j.depth = v.depth
  | .null, _, rfl => rfl
  | .bool _, _, rfl => rfl
  | .int _, _, rfl => rfl
  | .float _, _, rfl => rfl
  | .str _, _, rfl => rfl
  | .arr _, _, ⟨_, rfl, hitems⟩ => congrArg (1 + ·) (HasItems.depth_eq hitems)
  | .obj _, _, ⟨_, _, rfl, hperm, hmembers⟩ =>
    congrArg (1 + ·) ((depthMembers_perm hperm).trans (HasMembers.depth_eq hmembers))

theorem HasItems.depth_eq : ∀ {items : List Value} {js : List Json},
    HasItems items js → Json.depthItems js = Json.depthItems (itemsToJson items)
  | [], _, rfl => rfl
  | _ :: _, _, ⟨_, _, rfl, hx, hxs⟩ =>
    congrArg₂ max (HasDocument.depth_eq hx) (HasItems.depth_eq hxs)

theorem HasMembers.depth_eq : ∀ {members : List (String × Value)} {ms : List (String × Json)},
    HasMembers members ms → Json.depthMembers ms = Json.depthMembers (membersToJson members)
  | [], _, rfl => rfl
  | (_, _) :: _, _, ⟨_, _, rfl, hx, hxs⟩ =>
    congrArg₂ max (HasDocument.depth_eq hx) (HasMembers.depth_eq hxs)

end

theorem choose?_int (i : Int64) : choose? (toJson (.int i)) = some (.int i) := by
  have hread : Json.Number.toInt? (.whole (i.toInt < 0) i.toInt.natAbs) = some i := by
    have hsome := Integer.ofInt?_toInt i
    by_cases h : i.toInt < 0
    · have habs : -(i.toInt.natAbs : Int) = i.toInt := by omega
      have hne : i.toInt.natAbs ≠ 0 := by omega
      rw [decide_eq_true h, Json.Number.toInt?, if_neg hne, habs, hsome]
    · have habs : (i.toInt.natAbs : Int) = i.toInt := by omega
      rw [decide_eq_false h, Json.Number.toInt?, habs, hsome]
  simp [toJson, choose?, first?, null?, bool?, int?, hread]

theorem choose?_float {x : Double} (h : x.isFinite = true) :
    choose? (toJson (.float x)) = some (.float x) := by
  simp [toJson, floatJson, h, choose?, first?, null?, bool?, int?, float?, Json.Number.toInt?,
    Json.Number.toDouble?]

theorem chooseMembers?_cons_eq_some_iff {k : String} {j : Json} {ms : List (String × Json)}
    {xs : List (String × Value)} : chooseMembers? ((k, j) :: ms) = some xs ↔
      ∃ x ys, choose? j = some x ∧ chooseMembers? ms = some ys ∧ xs = (k, x) :: ys := by
  simp only [chooseMembers?, Option.bind_eq_bind, Option.bind_eq_some_iff, Option.pure_def,
    Option.some.injEq, eq_comm (b := xs)]
  simp only [exists_and_left]

theorem chooseMembers?_perm {js ms : List (String × Json)} (h : js.Perm ms)
    {xs : List (String × Value)} (hms : chooseMembers? ms = some xs) :
    ∃ ys, chooseMembers? js = some ys ∧ ys.Perm xs := by
  induction h generalizing xs with
  | nil => exact ⟨xs, hms, .refl xs⟩
  | cons m h ih =>
    obtain ⟨x, ys, hx, hys, rfl⟩ := chooseMembers?_cons_eq_some_iff.1 hms
    obtain ⟨zs, hzs, hperm⟩ := ih hys
    exact ⟨_, chooseMembers?_cons_eq_some_iff.2 ⟨x, zs, hx, hzs, rfl⟩, hperm.cons _⟩
  | swap m m' ms =>
    obtain ⟨x, _, hx, hrest, rfl⟩ := chooseMembers?_cons_eq_some_iff.1 hms
    obtain ⟨y, ys, hy, hys, rfl⟩ := chooseMembers?_cons_eq_some_iff.1 hrest
    refine ⟨_, chooseMembers?_cons_eq_some_iff.2 ⟨y, _, hy, ?_, rfl⟩, .swap ..⟩
    exact chooseMembers?_cons_eq_some_iff.2 ⟨x, ys, hx, hys, rfl⟩
  | trans h h' ih ih' =>
    obtain ⟨ys, hys, hperm⟩ := ih' hms
    obtain ⟨zs, hzs, hperm'⟩ := ih hys
    exact ⟨zs, hzs, hperm'.trans hperm⟩

mutual

theorem HasDocument.choose? : ∀ {v : Value} {j : Json}, v.HasDocument j →
    v.All IsFinite → v.All IsOrdered → Value.choose? j = some v
  | .null, _, rfl, _, _ => rfl
  | .bool _, _, rfl, _, _ => rfl
  | .int i, _, rfl, _, _ => choose?_int i
  | .float _, _, rfl, h, _ => choose?_float h
  | .str _, _, rfl, _, _ => rfl
  | .arr items, _, ⟨_, rfl, h⟩, hf, ho => by
    have hitems := HasItems.choose? h hf.2 ho.2
    simp [Value.choose?, hitems, first?, null?, bool?, int?, float?, str?]
  | .obj members, _, ⟨_, _, rfl, hperm, h⟩, hf, ho => by
    obtain ⟨ms, hms, hperm⟩ := chooseMembers?_perm hperm (HasMembers.choose? h hf.2 ho.2)
    have hsorted := Keyed.ofList_of_perm hperm ho.1
    simp [Value.choose?, hms, hsorted, first?, null?, bool?, int?, float?, str?]

theorem HasItems.choose? : ∀ {items : List Value} {js : List Json}, HasItems items js →
    AllItems IsFinite items → AllItems IsOrdered items → chooseItems? js = some items
  | [], _, rfl, _, _ => rfl
  | _ :: _, _, ⟨_, _, rfl, hx, hxs⟩, hf, ho => by
    simp [chooseItems?, HasDocument.choose? hx hf.1 ho.1, HasItems.choose? hxs hf.2 ho.2]

theorem HasMembers.choose? : ∀ {members : List (String × Value)} {ms : List (String × Json)},
    HasMembers members ms → AllMembers IsFinite members → AllMembers IsOrdered members →
      chooseMembers? ms = some members
  | [], _, rfl, _, _ => rfl
  | (_, _) :: _, _, ⟨_, _, rfl, hx, hxs⟩, hf, ho => by
    simp [chooseMembers?, HasDocument.choose? hx hf.1 ho.1, HasMembers.choose? hxs hf.2 ho.2]

end

structure IsProper (v : Value) : Prop where
  finite : v.All IsFinite
  ordered : v.All IsOrdered

theorem isProper_obj {members : List (String × Value)} (hsorted : Keyed.Sorted members)
    (h : ∀ m ∈ members, m.2.IsProper) : (Value.obj members).IsProper :=
  ⟨⟨trivial, allMembers_iff.2 fun m hm => (h m hm).finite⟩,
    ⟨hsorted, allMembers_iff.2 fun m hm => (h m hm).ordered⟩⟩

theorem depthMembers_le_iff {members : List (String × Value)} {n : Nat} :
    Json.depthMembers (membersToJson members) ≤ n ↔ ∀ m ∈ members, m.2.depth ≤ n := by
  induction members with
  | nil => simp [membersToJson, Json.depthMembers]
  | cons m members ih => simp [membersToJson, Json.depthMembers, ih, depth]

theorem depth_obj_le_iff {members : List (String × Value)} {n : Nat} :
    (Value.obj members).depth ≤ n + 1 ↔ ∀ m ∈ members, m.2.depth ≤ n := by
  rw [← depthMembers_le_iff, depth, toJson, Json.depth]
  omega

theorem isProper_of_ofNumber? {n : Json.Number} {v : Value} (h : ofNumber? n = some v) :
    v.IsProper ∧ v.depth = 0 := by
  unfold ofNumber? at h
  split at h
  next =>
    cases h
    exact ⟨⟨trivial, trivial⟩, rfl⟩
  next =>
    obtain ⟨x, hx, rfl⟩ := Option.map_eq_some_iff.1 h
    have hfinite : x.isFinite = true := by
      simp only [Json.Number.toDouble?, Option.ite_none_right_eq_some, Option.some.injEq] at hx
      exact hx.2 ▸ hx.1
    refine ⟨⟨hfinite, trivial⟩, ?_⟩
    cases x <;> rfl

mutual

theorem isProper_of_ofJson? : ∀ {j : Json} {v : Value}, ofJson? j = some v →
    v.IsProper ∧ v.depth ≤ j.depth
  | .null, _, h => by cases h; exact ⟨⟨trivial, trivial⟩, le_rfl⟩
  | .bool _, _, h => by cases h; exact ⟨⟨trivial, trivial⟩, le_rfl⟩
  | .num n, v, h => by
    obtain ⟨hv, hdepth⟩ := isProper_of_ofNumber? h
    exact ⟨hv, hdepth.le⟩
  | .str _, _, h => by cases h; exact ⟨⟨trivial, trivial⟩, le_rfl⟩
  | .arr items, v, h => by
    obtain ⟨xs, hxs, rfl⟩ := Option.map_eq_some_iff.1 h
    obtain ⟨hf, ho, hdepth⟩ := isProper_of_ofItems? hxs
    refine ⟨⟨⟨trivial, hf⟩, ⟨trivial, ho⟩⟩, ?_⟩
    rw [depth, toJson, Json.depth, Json.depth]
    omega
  | .obj members, v, h => by
    obtain ⟨ms, hms, rfl⟩ := Option.map_eq_some_iff.1 h
    have hall := isProper_of_ofMembers? hms
    refine ⟨isProper_obj (Keyed.sorted_ofList ms) fun m hm => ?_, ?_⟩
    · exact (hall m (Keyed.mem_ofList hm)).1
    · rw [Json.depth, Nat.add_comm]
      exact depth_obj_le_iff.2 fun m hm => (hall m (Keyed.mem_ofList hm)).2
  | .unpaired, _, h => by cases h

theorem isProper_of_ofItems? : ∀ {items : List Json} {xs : List Value}, ofItems? items = some xs →
    AllItems IsFinite xs ∧ AllItems IsOrdered xs ∧
      Json.depthItems (itemsToJson xs) ≤ Json.depthItems items
  | [], _, h => by cases h; exact ⟨trivial, trivial, le_rfl⟩
  | j :: items, xs, h => by
    simp only [ofItems?, Option.bind_eq_bind, Option.bind_eq_some_iff, Option.pure_def,
      Option.some.injEq] at h
    obtain ⟨x, hx, ys, hys, rfl⟩ := h
    obtain ⟨hv, hdepth⟩ := isProper_of_ofJson? hx
    obtain ⟨hf, ho, hrest⟩ := isProper_of_ofItems? hys
    exact ⟨⟨hv.finite, hf⟩, ⟨hv.ordered, ho⟩, max_le_max hdepth hrest⟩

theorem isProper_of_ofMembers? : ∀ {members : List (String × Json)} {ms : List (String × Value)},
    ofMembers? members = some ms →
      ∀ m ∈ ms, m.2.IsProper ∧ m.2.depth ≤ Json.depthMembers members
  | [], _, h => by cases h; simp
  | (k, j) :: members, ms, h => by
    simp only [ofMembers?, Option.bind_eq_bind, Option.bind_eq_some_iff, Option.pure_def,
      Option.some.injEq] at h
    obtain ⟨x, hx, ys, hys, rfl⟩ := h
    obtain ⟨hv, hdepth⟩ := isProper_of_ofJson? hx
    have hrest := isProper_of_ofMembers? hys
    intro m hm
    rcases List.mem_cons.1 hm with rfl | hm
    · exact ⟨hv, hdepth.trans (le_max_left _ _)⟩
    · exact ⟨(hrest m hm).1, (hrest m hm).2.trans (le_max_right _ _)⟩

end

end Value
end Changefeed
