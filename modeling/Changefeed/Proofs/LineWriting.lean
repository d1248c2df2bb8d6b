import Changefeed.Proofs.PayloadText
import Changefeed.Publisher
import Mathlib.Data.List.Induction

/-!
# Lines that are written whole

A message is written as a line with its end. When a call to the device fails, the output ends with
a first part of the line (`LineWriter.publish_leaves`), and the next message is written behind that
part. So a message that was published stands in the output as it is, but it has a line of its own
just if every publish before it that was torn was followed by one that wrote its line to the end
(`LineWriter.published_line_iff`).
-/

namespace Changefeed

namespace Message

def line (m : Message) : List Char := m.topic.toList ++ '\t' :: m.payload.toList

def wholeLine (m : Message) : List Char := m.line ++ ['\n']

theorem newline_notMem_line {topic : String} (h : '\n' ∉ topic.toList) (e : Event) :
    '\n' ∉ (ofEvent topic e).line := by
  have hpayload : '\n' ∉ e.payload.toList := e.noControls_payload.notMem (by decide)
  simp [line, ofEvent, h, hpayload]

end Message

namespace Lines

def complete (s : List Char) : List (List Char) := (s.splitOn '\n').dropLast

def cut (line : List Char) : List Char × List Char :=
  (line.takeWhile (· != '\t'), (line.dropWhile (· != '\t')).drop 1)

/-- What is written after this text begins a line. -/
def AtStart (s : List Char) : Prop := ∀ c ∈ s.getLast?, c = '\n'

variable {line s : List Char}

theorem complete_of_notMem (h : '\n' ∉ s) : complete s = [] := by
  rw [complete, List.splitOn_eq_singleton h]
  rfl

theorem complete_append (a s : List Char) :
    complete (a ++ '\n' :: s) = a.splitOn '\n' ++ complete s := by
  have hne : s.splitOn '\n' ≠ [] := fun h => List.splitOn_ne_nil _ _ h
  rw [complete, List.splitOn_append_cons_self, List.dropLast_append_of_ne_nil hne]
  rfl

theorem complete_line (h : '\n' ∉ line) (s : List Char) :
    complete (line ++ '\n' :: s) = line :: complete s := by
  rw [complete_append, List.splitOn_eq_singleton h]
  rfl

theorem cut_line {a : List Char} (h : '\t' ∉ a) (b : List Char) :
    cut (a ++ '\t' :: b) = (a, b) := by
  have ha : ∀ c ∈ a, (c != '\t') = true := fun c hc => bne_iff_ne.2 fun hctab => h (hctab ▸ hc)
  rw [cut, List.takeWhile_append_of_pos ha, List.dropWhile_append_of_pos ha]
  simp

theorem map_cut_line {messages : List Message} (h : ∀ m ∈ messages, '\t' ∉ m.topic.toList) :
    (messages.map Message.line).map cut =
      messages.map fun m => (m.topic.toList, m.payload.toList) := by
  rw [List.map_map]
  exact List.map_congr_left fun m hm => cut_line (h m hm) _

theorem atStart_concat (s : List Char) (c : Char) : AtStart (s ++ [c]) ↔ c = '\n' := by
  simp [AtStart]

theorem atStart_iff : AtStart s ↔ s = [] ∨ ∃ a, s = a ++ ['\n'] := by
  rcases List.eq_nil_or_concat' s with rfl | ⟨a, c, rfl⟩
  · exact iff_of_true nofun (.inl rfl)
  · simp [atStart_concat]

theorem not_atStart_append (s : List Char) (hne : line ≠ []) (h : '\n' ∉ line) :
    ¬ AtStart (s ++ line) := by
  obtain ⟨a, c, rfl⟩ := (List.eq_nil_or_concat' line).resolve_left hne
  rw [← List.append_assoc, atStart_concat]
  rintro rfl
  simp at h

def StandsIn (line s : List Char) : Prop := ∃ a b, s = a ++ line ++ '\n' :: b ∧ AtStart a

theorem StandsIn.mem_complete (hline : '\n' ∉ line) (h : StandsIn line s) : line ∈ complete s := by
  obtain ⟨a, b, rfl, ha⟩ := h
  rcases atStart_iff.1 ha with rfl | ⟨a, rfl⟩
  · rw [List.nil_append, complete_line hline]
    exact List.mem_cons_self
  · rw [List.append_assoc, List.append_assoc, List.singleton_append, complete_append,
      complete_line hline]
    exact List.mem_append_right _ List.mem_cons_self

end Lines

namespace DeviceFaults

variable (faults : DeviceFaults)

def Spares (w w' : LineWriter) : Prop :=
  (∀ i, w.writes ≤ i → i < w'.writes → faults.write i = false) ∧
    ∀ i, w.flushes ≤ i → i < w'.flushes → faults.flush i = false

theorem spares_self (w : LineWriter) : faults.Spares w w :=
  ⟨fun _ hi hlt => absurd hi (Nat.not_le.2 hlt), fun _ hi hlt => absurd hi (Nat.not_le.2 hlt)⟩

theorem spares_write_iff (w : LineWriter) (written : String) :
    faults.Spares w { w with written, writes := w.writes + 1 } ↔
      faults.write w.writes = false := by
  constructor
  · exact fun hspares => hspares.1 _ (Nat.le_refl _) (Nat.lt_succ_self _)
  · intro hwrite
    refine ⟨fun i hi hlt => ?_, (faults.spares_self w).2⟩
    rwa [Nat.le_antisymm (Nat.le_of_lt_succ hlt) hi]

theorem spares_flush_iff (w : LineWriter) :
    faults.Spares w { w with flushes := w.flushes + 1 } ↔ faults.flush w.flushes = false := by
  constructor
  · exact fun hspares => hspares.2 _ (Nat.le_refl _) (Nat.lt_succ_self _)
  · intro hflush
    refine ⟨(faults.spares_self w).1, fun i hi hlt => ?_⟩
    rwa [Nat.le_antisymm (Nat.le_of_lt_succ hlt) hi]

theorem spares_trans_iff {w w' w'' : LineWriter} (hwrites : w.writes ≤ w'.writes)
    (hwrites' : w'.writes ≤ w''.writes) (hflushes : w.flushes ≤ w'.flushes)
    (hflushes' : w'.flushes ≤ w''.flushes) :
    faults.Spares w w'' ↔ faults.Spares w w' ∧ faults.Spares w' w'' := by
  constructor
  · intro hall
    refine ⟨⟨fun i hi hlt => ?_, fun i hi hlt => ?_⟩, ⟨fun i hi hlt => ?_, fun i hi hlt => ?_⟩⟩
    · exact hall.1 i hi (Nat.lt_of_lt_of_le hlt hwrites')
    · exact hall.2 i hi (Nat.lt_of_lt_of_le hlt hflushes')
    · exact hall.1 i (Nat.le_trans hwrites hi) hlt
    · exact hall.2 i (Nat.le_trans hflushes hi) hlt
  · rintro ⟨hfirst, hrest⟩
    refine ⟨fun i hi hlt => ?_, fun i hi hlt => ?_⟩
    · rcases Nat.lt_or_ge i w'.writes with hbefore | hafter
      · exact hfirst.1 i hi hbefore
      · exact hrest.1 i hafter hlt
    · rcases Nat.lt_or_ge i w'.flushes with hbefore | hafter
      · exact hfirst.2 i hi hbefore
      · exact hrest.2 i hafter hlt

end DeviceFaults

namespace LineWriter

/-- The writer has been brought from one state to the other and has left a text in the output. The
result is good if no call failed. -/
structure Leaves (faults : DeviceFaults) (w w' : LineWriter) (result : Except PublishError Unit)
    (left : List Char) : Prop where
  written : w'.written.toList = w.written.toList ++ left
  writes : w.writes ≤ w'.writes
  flushes : w.flushes ≤ w'.flushes
  result : result = .ok () ∧ faults.Spares w w' ∨ result = .error fault ∧ ¬ faults.Spares w w'

section Leaves

variable {faults : DeviceFaults} {w w' w'' : LineWriter} {result : Except PublishError Unit}
  {left left' : List Char}

theorem Leaves.ok_iff (h : Leaves faults w w' result left) :
    result = .ok () ↔ faults.Spares w w' := by
  rcases h.result with ⟨rfl, hspares⟩ | ⟨rfl, hspares⟩
  · exact iff_of_true rfl hspares
  · exact iff_of_false nofun hspares

theorem Leaves.error_eq (h : Leaves faults w w' result left) {error : PublishError}
    (he : result = .error error) : error = fault := by
  subst he
  rcases h.result with ⟨hok, -⟩ | ⟨hfault, -⟩
  · cases hok
  · exact Except.error.inj hfault

theorem leaves_refl (faults : DeviceFaults) (w : LineWriter) : Leaves faults w w (.ok ()) [] :=
  ⟨(List.append_nil _).symm, Nat.le_refl _, Nat.le_refl _, .inl ⟨rfl, faults.spares_self w⟩⟩

theorem Leaves.trans (h : Leaves faults w w' (.ok ()) left)
    (h' : Leaves faults w' w'' result left') : Leaves faults w w'' result (left ++ left') := by
  have hspares : faults.Spares w w'' ↔ faults.Spares w' w'' := by
    rw [faults.spares_trans_iff h.writes h'.writes h.flushes h'.flushes]
    exact and_iff_right (h.ok_iff.1 rfl)
  refine ⟨?_, Nat.le_trans h.writes h'.writes, Nat.le_trans h.flushes h'.flushes, ?_⟩
  · rw [h'.written, h.written, List.append_assoc]
  · rw [hspares]
    exact h'.result

end Leaves

variable (faults : DeviceFaults)

theorem write_leaves (text : String) (w : LineWriter) :
    (w.write faults text).1 = .ok () ∧
        Leaves faults w (w.write faults text).2 (.ok ()) text.toList ∨
      (w.write faults text).1 = .error fault ∧
        Leaves faults w (w.write faults text).2 (.error fault) [] := by
  by_cases hempty : text.isEmpty = true
  · have htext : text = "" := String.isEmpty_iff.1 hempty
    rw [write, if_pos hempty, htext]
    exact .inl ⟨rfl, leaves_refl faults w⟩
  rw [write, if_neg hempty]
  have hspares (written : String) := faults.spares_write_iff w written
  by_cases hfails : faults.write w.writes = true
  · rw [if_pos hfails]
    refine .inr ⟨rfl, (List.append_nil _).symm, Nat.le_succ _, Nat.le_refl _, .inr ⟨rfl, ?_⟩⟩
    rw [hspares, hfails]
    exact Bool.noConfusion
  · rw [if_neg hfails]
    refine .inl ⟨rfl, String.toList_append, Nat.le_succ _, Nat.le_refl _, .inl ⟨rfl, ?_⟩⟩
    rw [hspares]
    exact Bool.eq_false_iff.2 hfails

theorem flush_leaves (w : LineWriter) :
    Leaves faults w (w.flush faults).2 (w.flush faults).1 [] := by
  refine ⟨(List.append_nil _).symm, Nat.le_refl _, Nat.le_succ _, ?_⟩
  rw [flush, faults.spares_flush_iff]
  by_cases hfails : faults.flush w.flushes = true
  · rw [if_pos hfails, hfails]
    exact .inr ⟨rfl, Bool.noConfusion⟩
  · rw [if_neg hfails]
    exact .inl ⟨rfl, Bool.eq_false_iff.2 hfails⟩

theorem writeAll_leaves (texts : List String) (w : LineWriter) :
    (w.writeAll faults texts).1 = .ok () ∧
        Leaves faults w (w.writeAll faults texts).2 (.ok ()) (texts.flatMap String.toList) ∨
      (w.writeAll faults texts).1 = .error fault ∧
        ∃ left, left <+: texts.dropLast.flatMap String.toList ∧
          Leaves faults w (w.writeAll faults texts).2 (.error fault) left := by
  induction texts generalizing w with
  | nil => exact .inl ⟨rfl, leaves_refl faults w⟩
  | cons text texts ih =>
    rw [writeAll]
    have hfirst := write_leaves faults text w
    generalize w.write faults text = first at hfirst
    obtain ⟨result, w₁⟩ := first
    rcases hfirst with ⟨hok, hleaves⟩ | ⟨herror, hleaves⟩
    · obtain rfl : result = .ok () := hok
      rcases ih w₁ with ⟨hok, hrest⟩ | ⟨herror, left, hinit, hrest⟩
      · exact .inl ⟨hok, hleaves.trans hrest⟩
      · cases texts with
        | nil => cases herror
        | cons text' texts =>
          refine .inr ⟨herror, text.toList ++ left, ?_, hleaves.trans hrest⟩
          rw [List.dropLast_cons_cons, List.flatMap_cons]
          exact (List.prefix_append_right_inj _).2 hinit
    · obtain rfl : result = .error fault := herror
      exact .inr ⟨rfl, [], List.nil_prefix, hleaves⟩

theorem publish_leaves (w : LineWriter) (m : Message) :
    Leaves faults w (publish faults w m).2 (publish faults w m).1 m.wholeLine ∨
      (publish faults w m).1 = .error fault ∧ ∃ left, left <+: m.line ∧
        Leaves faults w (publish faults w m).2 (.error fault) left := by
  have hwhole : (pieces m).flatMap String.toList = m.wholeLine := by
    simp [pieces, Message.wholeLine, Message.line]
  have hline : (pieces m).dropLast.flatMap String.toList = m.line := by
    simp [pieces, Message.line]
  have hall := writeAll_leaves faults (pieces m) w
  rw [hwhole, hline] at hall
  rw [publish]
  generalize w.writeAll faults (pieces m) = written at hall
  obtain ⟨result, w₁⟩ := written
  rcases hall with ⟨hok, hleaves⟩ | ⟨herror, hpart⟩
  · obtain rfl : result = .ok () := hok
    have hflush := hleaves.trans (flush_leaves faults w₁)
    rw [List.append_nil] at hflush
    exact .inl hflush
  · obtain rfl : result = .error fault := herror
    exact .inr ⟨rfl, hpart⟩

theorem publish_written (w : LineWriter) (m : Message) :
    ∃ left, (publish faults w m).2.written.toList = w.written.toList ++ left := by
  rcases publish_leaves faults w m with hleaves | ⟨-, left, -, hleaves⟩
  · exact ⟨_, hleaves.written⟩
  · exact ⟨left, hleaves.written⟩

theorem publish_of_ok {w : LineWriter} {m : Message} (h : (publish faults w m).1 = .ok ()) :
    Leaves faults w (publish faults w m).2 (.ok ()) m.wholeLine := by
  rcases publish_leaves faults w m with hleaves | ⟨herror, -⟩
  · rwa [h] at hleaves
  · rw [h] at herror
    cases herror

theorem publish_error {w : LineWriter} {m : Message} {error : PublishError}
    (h : (publish faults w m).1 = .error error) : error = fault := by
  rcases publish_leaves faults w m with hleaves | ⟨hfault, -⟩
  · exact hleaves.error_eq h
  · exact Except.error.inj (h.symm.trans hfault)

/-- Publishes messages one after the other, whatever becomes of each. -/
def attempt (w : LineWriter) (messages : List Message) : LineWriter :=
  messages.foldl (fun w m => (publish faults w m).2) w

def turns : LineWriter → List Message → List (LineWriter × Message)
  | _, [] => []
  | w, m :: messages => (w, m) :: turns (publish faults w m).2 messages

def Whole (t : LineWriter × Message) : Prop :=
  (publish faults t.1 t.2).2.written.toList = t.1.written.toList ++ t.2.wholeLine

def Torn (t : LineWriter × Message) : Prop :=
  (publish faults t.1 t.2).2.written ≠ t.1.written ∧ ¬ Whole faults t

theorem attempt_concat (w : LineWriter) (messages : List Message) (m : Message) :
    attempt faults w (messages ++ [m]) = (publish faults (attempt faults w messages) m).2 :=
  List.foldl_concat ..

theorem turns_concat (w : LineWriter) (messages : List Message) (m : Message) :
    turns faults w (messages ++ [m]) =
      turns faults w messages ++ [(attempt faults w messages, m)] := by
  induction messages generalizing w with
  | nil => rfl
  | cons first messages ih => exact congrArg ((w, first) :: ·) (ih _)

theorem attempt_written (w : LineWriter) (messages : List Message) :
    ∃ left, (attempt faults w messages).written.toList = w.written.toList ++ left := by
  induction messages generalizing w with
  | nil => exact ⟨[], (List.append_nil _).symm⟩
  | cons m messages ih =>
    obtain ⟨left, hleft⟩ := publish_written faults w m
    obtain ⟨rest, hrest⟩ := ih (publish faults w m).2
    exact ⟨left ++ rest, by rw [← List.append_assoc, ← hleft]; exact hrest⟩

/-- Every torn line is followed by a line that is written to its end. -/
def Mended (history : List (LineWriter × Message)) : Prop :=
  ∀ p t q, history = p ++ t :: q → Torn faults t → ∃ u ∈ q, Whole faults u

theorem mended_concat (history : List (LineWriter × Message)) (t : LineWriter × Message) :
    Mended faults (history ++ [t]) ↔ Whole faults t ∨ ¬ Torn faults t ∧ Mended faults history := by
  constructor
  · intro h
    by_cases hwhole : Whole faults t
    · exact .inl hwhole
    refine .inr ⟨fun htorn => ?_, fun p u q hu htorn => ?_⟩
    · obtain ⟨u, hu, -⟩ := h history t [] rfl htorn
      cases hu
    · obtain ⟨v, hv, hvwhole⟩ := h p u (q ++ [t]) (by rw [hu, List.append_assoc]; rfl) htorn
      rcases List.mem_append.1 hv with hv | hv
      · exact ⟨v, hv, hvwhole⟩
      · obtain rfl := List.mem_singleton.1 hv
        exact absurd hvwhole hwhole
  · intro h p u q hu htorn
    rcases List.eq_nil_or_concat' q with rfl | ⟨q, v, rfl⟩
    · obtain ⟨-, hlast⟩ := List.append_inj' hu rfl
      obtain rfl := List.singleton_inj.1 hlast
      rcases h with hwhole | ⟨hnot, -⟩
      · exact absurd hwhole htorn.2
      · exact absurd htorn hnot
    · rw [← List.cons_append, ← List.append_assoc] at hu
      obtain ⟨rfl, hlast⟩ := List.append_inj' hu rfl
      obtain rfl := List.singleton_inj.1 hlast
      rcases h with hwhole | ⟨-, hmended⟩
      · exact ⟨t, List.mem_append_right _ List.mem_cons_self, hwhole⟩
      · obtain ⟨x, hx, hwhole⟩ := hmended p u q rfl htorn
        exact ⟨x, List.mem_append_left _ hx, hwhole⟩

theorem atStart_attempt_iff {messages : List Message} (h : ∀ m ∈ messages, '\n' ∉ m.line) :
    Lines.AtStart (attempt faults .new messages).written.toList ↔
      Mended faults (turns faults .new messages) := by
  induction messages using List.reverseRecOn with
  | nil =>
    refine iff_of_true nofun fun p t q hturns => ?_
    cases p <;> cases hturns
  | append_singleton messages m ih =>
    have hlines := List.forall_mem_append.1 h
    rw [turns_concat, mended_concat, ← ih hlines.1, attempt_concat]
    let t := (attempt faults .new messages, m)
    by_cases hwhole : Whole faults t
    · refine iff_of_true ?_ (.inl hwhole)
      rw [Whole.eq_1] at hwhole
      rw [hwhole, Message.wholeLine, ← List.append_assoc, Lines.atStart_concat]
    by_cases hsame : (publish faults t.1 t.2).2.written = t.1.written
    · have htorn : ¬ Torn faults t := fun htorn => htorn.1 hsame
      rw [hsame]
      exact ⟨fun hstart => .inr ⟨htorn, hstart⟩, fun hmended => (hmended.resolve_left hwhole).2⟩
    -- A part of the line without its end is in the way.
    refine iff_of_false ?_ fun hmended => (hmended.resolve_left hwhole).1 ⟨hsame, hwhole⟩
    rcases publish_leaves faults t.1 t.2 with hleaves | ⟨-, left, hinit, hleaves⟩
    · exact absurd hleaves.written hwhole
    · rw [hleaves.written]
      refine Lines.not_atStart_append _ ?_ fun hmem => hlines.2 m List.mem_cons_self
        (hinit.subset hmem)
      rintro rfl
      exact hsame (String.toList_injective (hleaves.written.trans (List.append_nil _)))

def sent (requests : List (String × Event)) : List Message :=
  requests.map fun t => .ofEvent t.1 t.2

/-- A message that was published stands in the output. It has a line of its own just if nothing is
left in front of it of a publish that failed part-way, although such a publish may be repeated. -/
theorem published_line_iff (before after : List (String × Event)) (topic : String) (e : Event)
    (htopics : ∀ t ∈ before, '\n' ∉ t.1.toList)
    (hok : (publish faults (attempt faults .new (sent before)) (.ofEvent topic e)).1 = .ok ()) :
    let w := attempt faults .new (sent before)
    let m := Message.ofEvent topic e
    (∃ later, (attempt faults .new (sent (before ++ (topic, e) :: after))).written.toList =
      w.written.toList ++ m.line ++ '\n' :: later) ∧
    (Lines.AtStart w.written.toList ↔ Mended faults (turns faults .new (sent before))) ∧
    ∀ w m error, (publish faults w m).1 = .error error → error.isRetryable = true := by
  intro w m
  refine ⟨?_, atStart_attempt_iff faults ?_, fun w m error herror => ?_⟩
  · obtain ⟨later, hlater⟩ := attempt_written faults (publish faults w m).2 (sent after)
    refine ⟨later, ?_⟩
    have hrun : attempt faults .new (sent (before ++ (topic, e) :: after)) =
        attempt faults (publish faults w m).2 (sent after) := by
      simp [attempt, sent, w, m]
    rw [hrun, hlater, (publish_of_ok faults hok).written, Message.wholeLine]
    simp [w, m]
  · intro m hm
    obtain ⟨t, ht, rfl⟩ := List.mem_map.1 hm
    exact Message.newline_notMem_line (htopics t ht) t.2
  · rw [publish_error faults herror]
    rfl

theorem published_line_mended :
    let w := attempt (.atWrite 1) .new (sent [("a", .blank), ("a", .blank)])
    (publish (.atWrite 1) w (.ofEvent "b" .blank)).1 = .ok () ∧
      (Lines.AtStart w.written.toList ↔
        Mended (.atWrite 1) (turns (.atWrite 1) .new (sent [("a", .blank), ("a", .blank)]))) := by
  have hok : (publish (.atWrite 1) (attempt (.atWrite 1) .new
      (sent [("a", .blank), ("a", .blank)])) (.ofEvent "b" .blank)).1 = .ok () := by
    decide +kernel
  exact ⟨hok, (published_line_iff (.atWrite 1) [("a", .blank), ("a", .blank)] [] "b" .blank
    (by decide) hok).2.1⟩

/-- The second message is published, but its line begins with what is left of the first. -/
theorem published_line_torn :
    let w := attempt (.atWrite 1) .new (sent [("a", .blank)])
    let m := Message.ofEvent "b" .blank
    (publish (.atWrite 1) w m).1 = .ok () ∧
      ¬ Lines.StandsIn m.line (publish (.atWrite 1) w m).2.written.toList := by
  refine ⟨by decide +kernel, fun hstands => ?_⟩
  have hmem := hstands.mem_complete (Message.newline_notMem_line (by decide) _)
  revert hmem
  decide +kernel

end LineWriter
end Changefeed
