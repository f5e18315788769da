import RouteBinding.Console
import RouteBinding.Proofs.Action
import RouteBinding.Proofs.Data.Graph

/-!
# Writing to a console

A message is written as it is where colours are turned off or it has no brackets, and a table wherever it is not set in
columns. Beside the markup that a library of the terminal may refuse, only data with keys that are no texts, or with
numbers that have too many digits, cannot be written.
-/

open RouteBinding.Action (Total total_pure total_modify total_forM)

namespace RouteBinding

/-! ## Data that can be written -/

namespace Json

variable {layout : Layout} {depth : Nat}

/-- Items are written if each of them is. -/
theorem isSome_writeItems? {items : List Tree} :
    (layout.writeItems? depth items).isSome ↔ ∀ t ∈ items, (layout.writeAt? depth t).isSome := by
  induction items with
  | nil => simp [Layout.writeItems?]
  | cons t rest ih =>
    rw [Layout.writeItems?, List.forall_mem_cons, ← ih]
    cases layout.writeAt? depth t <;> cases layout.writeItems? depth rest <;> simp

/-- Entries are written if each of them is, its key included. -/
theorem isSome_writeEntries? {entries : List (Scalar × Tree)} :
    (layout.writeEntries? depth entries).isSome ↔
      ∀ e ∈ entries, (keyText? e.1).isSome ∧ (layout.writeAt? depth e.2).isSome := by
  induction entries with
  | nil => simp [Layout.writeEntries?]
  | cons e rest ih =>
    rw [Layout.writeEntries?, List.forall_mem_cons, ← ih]
    cases keyText? e.1 <;> cases layout.writeAt? depth e.2 <;> cases layout.writeEntries? depth rest <;> simp

theorem isSome_writeAt?_list {items : List Tree} (h : ∀ t ∈ items, (layout.writeAt? (depth + 1) t).isSome) :
    (layout.writeAt? depth (.list items)).isSome := by
  obtain ⟨texts, htexts⟩ := Option.isSome_iff_exists.1 (isSome_writeItems?.2 h)
  rw [Layout.writeAt?]
  split_ifs
  · rfl
  · rw [htexts]
    rfl

theorem isSome_writeAt?_mapping {entries : List (Scalar × Tree)}
    (h : ∀ e ∈ entries, (keyText? e.1).isSome ∧ (layout.writeAt? (depth + 1) e.2).isSome) :
    (layout.writeAt? depth (.mapping entries)).isSome := by
  obtain ⟨texts, htexts⟩ := Option.isSome_iff_exists.1 (isSome_writeEntries?.2 h)
  rw [Layout.writeAt?]
  split_ifs
  · rfl
  · rw [htexts]
    rfl

end Json

namespace Console

variable {c : Console}

/-- The records of a table can be written. -/
theorem isSome_write?_records (layout : Json.Layout) (columns : List String) (rows : List (List String)) :
    (Json.write? layout (records columns rows)).isSome := by
  refine Json.isSome_writeAt?_list (List.forall_mem_map.2 fun row _ => Json.isSome_writeAt?_mapping fun e he => ?_)
  -- each key is the name of a column, and each value a cell
  obtain ⟨named, hnamed, hkey⟩ := List.mem_map.1 (mem_keys_mergeEntries (List.mem_map_of_mem he))
  obtain ⟨cell, hcell, hvalue⟩ := List.mem_map.1 (mem_values_mergeEntries (List.mem_map_of_mem he))
  obtain ⟨p, -, rfl⟩ := List.mem_map.1 hnamed
  obtain ⟨q, -, rfl⟩ := List.mem_map.1 hcell
  rw [← hkey, ← hvalue]
  exact ⟨rfl, rfl⟩

/-! ## Messages -/

/-- A console can say a message on a host: it writes it as it is, or the host's library shows its markup. -/
def Shows (c : Console) (h : Host) (markup : String) : Prop :=
  c.colourless ∨ (h.renderer.message? markup).isSome

/-- What is said to a host is a line of its messages, or the run breaks off. -/
theorem say_cases (c : Console) (message markup : String) (h : Host) :
    (c.Shows h markup ∧ ∃ line, c.say message markup h = (.ok ⟨⟩, h.note line)) ∨
      ¬ c.Shows h markup ∧ c.say message markup h = (.error (.breakdown .badMarkup), h) := by
  unfold say Shows
  by_cases hplain : c.colourless
  · rw [if_pos hplain]
    exact .inl ⟨.inl hplain, message, rfl⟩
  · rw [if_neg hplain, Action.bind_of_ok (Action.get_apply h)]
    cases hshown : h.renderer.message? markup with
    | some text => exact .inl ⟨.inr rfl, text, rfl⟩
    | none =>
      refine .inr ⟨?_, rfl⟩
      rintro (hyes | ⟨⟨⟩⟩)
      exact hplain hyes

/-- A text without brackets that is set in a style can be shown. -/
theorem isSome_message?_around (r : Renderer) (style : TextStyle) {text : String} (htext : '[' ∉ text.toList) :
    (r.message? (style.around text)).isSome := by
  have hshown := r.shows_styled style text "" htext (by simp)
  rwa [String.append_empty] at hshown

theorem total_success {message : String} (hmessage : '[' ∉ message.toList) : Total (c.success message) := by
  intro h
  unfold success
  split_ifs
  · exact ⟨_, _, rfl⟩
  · rcases c.say_cases message (TextStyle.green.around message) h with ⟨-, line, hsaid⟩ | ⟨hnot, -⟩
    · exact ⟨_, _, hsaid⟩
    · exact absurd (.inr (isSome_message?_around _ _ hmessage)) hnot

/-! ## Writing plainly -/

/-- A console writes plainly if it sets no tables in columns, and tells of steps only where colours are turned off: of
what a table or a message about a step holds nothing is taken as markup then. -/
def WritesPlainly (c : Console) : Prop :=
  c.format ≠ .rich ∧ (c.colourless ∨ c.verbose = false)

theorem total_print (text : String) : Total (print text) := total_modify _

theorem total_debug (hc : c.WritesPlainly) (message : String) : Total (c.debug message) := by
  unfold debug say
  rcases hc.2 with hplain | hquiet
  · rw [if_pos hplain]
    split_ifs
    · exact total_modify _
    · exact total_pure _
  · rw [hquiet]
    exact total_pure _

/-- Findings that only inform are told as steps. -/
theorem total_report (hc : c.WritesPlainly) {findings : List Diagnostic} (hfindings : ∀ d ∈ findings, d.level = .info) :
    Total (c.report findings) := by
  refine total_forM fun d hd => ?_
  rw [hfindings d hd]
  exact total_debug hc _

theorem total_showTable (hc : c.WritesPlainly) (title : String) (columns : List String) (rows : List (List String)) :
    Total (c.showTable title columns rows) := by
  unfold showTable
  split
  · obtain ⟨text, htext⟩ := Option.isSome_iff_exists.1 (isSome_write?_records .pretty columns rows)
    rw [written, htext]
    exact total_print text
  · exact absurd ‹_› hc.1
  · exact total_forM fun row _ => total_print _

end Console

end RouteBinding
