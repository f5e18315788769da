import RouteBinding.Document.Content
import RouteBinding.Proofs.Data.Unfolding
import RouteBinding.Proofs.Json.RoundTrip
import RouteBinding.Proofs.Yaml.Construct
import RouteBinding.Proofs.Yaml.Node

/-!
# JSON texts as YAML

A JSON text has one meaning whether it is known to be JSON or nothing is known of it. Where it is known to be YAML, its
lists, mappings, texts and most of its words mean the same, if all that it is written with may stand in a YAML text
(`Document.means_of_read`). The other words are texts there: numbers with an exponent but without a point or without
the sign of the exponent, and what stands for no number or for one beyond all bounds.
-/

namespace RouteBinding

namespace Yaml

open Json (Form Items Entries Word)

variable {nodes : Array Node} {node : Node} {l l' : List Node} {n depth : Nat}

/-! ## Nodes of JSON texts -/

/-- Nodes stand one behind the other from a place on. -/
def StandsAt (nodes : Array Node) (n : Nat) (l : List Node) : Prop :=
  ∀ i node, l[i]? = some node → nodes[n + i]? = some node

theorem standsAt_zero (l : List Node) : StandsAt l.toArray 0 l := by
  intro i node hi
  rwa [Nat.zero_add, List.getElem?_toArray]

theorem StandsAt.head (h : StandsAt nodes n (node :: l)) : nodes[n]? = some node :=
  h 0 node rfl

theorem StandsAt.tail (h : StandsAt nodes n (node :: l)) : StandsAt nodes (n + 1) l := by
  intro i node hi
  rw [Nat.add_assoc, Nat.add_comm 1]
  exact h (i + 1) node hi

theorem StandsAt.left (h : StandsAt nodes n (l ++ l')) : StandsAt nodes n l := by
  intro i node hi
  obtain ⟨hlt, -⟩ := List.getElem?_eq_some_iff.1 hi
  exact h i node (by rw [List.getElem?_append_left hlt, hi])

theorem StandsAt.right (h : StandsAt nodes n (l ++ l')) : StandsAt nodes (n + l.length) l' := by
  intro i node hi
  rw [Nat.add_assoc]
  exact h (l.length + i) node (by rw [List.getElem?_append_right (Nat.le_add_right ..), Nat.add_sub_cancel_left, hi])

mutual

/-- The nodes of a value describe its tree, in which every word stands for what it is as a plain text. -/
theorem gives_form (f : Form) {n depth : Nat} (h : StandsAt nodes n (f.nodes n)) (hdepth : f.count ≤ depth) :
    Gives nodes depth n (f.tree Word.yamlValue) := by
  cases f with
  | word w => exact IsScalar.gives ⟨_, _, h.head, scalarOf_word w⟩ depth
  | text q => exact (isScalar_text h.head).gives depth
  | list items =>
    obtain ⟨depth, rfl⟩ := Nat.exists_eq_add_of_le' (Nat.le_trans (Nat.le_add_left 1 items.count) hdepth)
    exact .inr (.inl ⟨_, _, h.head, gives_items items h.tail (Nat.le_of_succ_le_succ hdepth), rfl⟩)
  | mapping entries =>
    obtain ⟨depth, rfl⟩ := Nat.exists_eq_add_of_le' (Nat.le_trans (Nat.le_add_left 1 entries.count) hdepth)
    exact .inr (.inr ⟨_, _, h.head, gives_entries entries h.tail (Nat.le_of_succ_le_succ hdepth), rfl⟩)

theorem gives_items (items : Items) {n depth : Nat} (h : StandsAt nodes n (items.nodes n))
    (hdepth : items.count ≤ depth) :
    List.Forall₂ (Gives nodes depth) (items.ids n) (items.trees Word.yamlValue) := by
  cases items with
  | none gap => exact .nil
  | more before after item rest =>
    have hrest := h.right
    rw [item.length_nodes] at hrest
    obtain ⟨hitem, hmore⟩ : item.count ≤ depth ∧ rest.count ≤ depth := by
      rw [Items.count] at hdepth
      omega
    exact .cons (gives_form item h.left hitem) (gives_items rest hrest hmore)

theorem gives_entries (entries : Entries) {n depth : Nat} (h : StandsAt nodes n (entries.nodes n))
    (hdepth : entries.count ≤ depth) :
    List.Forall₂ (fun e f => (∃ key, nodes[e.1]? = some ⟨.text, .scalar key⟩ ∧ f.1 = .text key) ∧
      Gives nodes depth e.2 f.2) (entries.ids n) (entries.trees Word.yamlValue) := by
  cases entries with
  | none gap => exact .nil
  | more before after key value rest =>
    have hrest := h.tail.right
    rw [value.length_nodes] at hrest
    obtain ⟨hvalue, hmore⟩ : value.count ≤ depth ∧ rest.count ≤ depth := by
      rw [Entries.count] at hdepth
      omega
    exact .cons ⟨⟨_, h.head, rfl⟩, gives_form value h.tail.left hvalue⟩ (gives_entries rest hrest hmore)

end

/-- A JSON text is read as the tree of its form, in which every word stands for what it is as a plain text. -/
theorem exists_read_of_spells {f : Form} {content : String} (h : f.Spells content)
    (hportable : ∀ ch ∈ content.toList, isPortable ch) (hfits : f.Fits) :
    ∃ d, read content = .ok d ∧ d.graph.toTree? d.root = some (f.tree Word.yamlValue) := by
  have hgives := gives_form f (standsAt_zero (f.nodes 0)) le_rfl
  obtain ⟨d, hd, htree⟩ := exists_document_of_gives hgives (by simp [f.length_nodes])
  refine ⟨d, ?_, htree⟩
  rw [read, tokens_of_spells h hportable hfits, ofTokens_form]
  exact hd

end Yaml

namespace Document

open Json (Form Word)

/-! ## Formats -/

/-- A text that is known to be in a format, or of which nothing is known, is read as a tree. -/
def Means (format : Option DataFormat) (content : String) (t : Tree) : Prop :=
  ∃ d, ofText format content = .ok d ∧ d.graph.toTree? d.root = some t

theorem means_json {format : Option DataFormat} {content : String} {t : Tree} (hformat : format ≠ some .yaml)
    (h : Json.read content = .ok t) : Means format content t := by
  refine ⟨ofTree t, ?_, toTree?_ofTree t⟩
  rw [ofText, if_neg hformat, h]

/-- A text means one tree at most in each format. -/
theorem Means.unique {format : Option DataFormat} {content : String} {t t' : Tree} (h : Means format content t)
    (h' : Means format content t') : t = t' := by
  obtain ⟨d, hd, ht⟩ := h
  obtain ⟨d', hd', ht'⟩ := h'
  cases hd.symm.trans hd'
  exact Option.some.inj (ht.symm.trans ht')

/-- A character that no YAML text may hold is refused wherever it stands. -/
theorem not_means_yaml {content : String} {ch : Char} (hmem : ch ∈ content.toList) (hch : Yaml.isAllowed ch = false)
    (t : Tree) : ¬Means (some .yaml) content t := by
  rintro ⟨d, hd, -⟩
  have hall : content.toList.all Yaml.isAllowed = false := List.all_eq_false.2 ⟨ch, hmem, by rw [hch]; decide⟩
  have hread : Yaml.read content = .error .malformed := by
    rw [Yaml.read, Yaml.tokens, hall]
    rfl
  rw [ofText, if_pos rfl, ofYaml, hread] at hd
  cases hd

/-- A text that is JSON means the same where nothing is known of it and where it is known to be JSON. Where it is known
to be YAML, and may be written so, each of its words stands for what it is as a plain text: it means the same there
too exactly if that makes the same tree, and so if no word is read otherwise. A text with a character that YAML forbids
means nothing there. -/
theorem means_of_read {content : String} {t : Tree} (h : Json.read content = .ok t) :
    Means none content t ∧ Means (some .json) content t ∧
      (∃ f : Form, f.Spells content ∧ f.tree Word.value = t) ∧
      (∀ f : Form, f.Spells content → f.tree Word.value = t →
        (∀ ch ∈ content.toList, Yaml.isPortable ch) → f.Fits →
          Means (some .yaml) content (f.tree Word.yamlValue) ∧
            (Means (some .yaml) content t ↔ f.tree Word.yamlValue = t) ∧
            ((∀ w ∈ f.words, w.isYaml) → Means (some .yaml) content t)) ∧
      ((∃ ch ∈ content.toList, Yaml.isAllowed ch = false) → ∀ t', ¬Means (some .yaml) content t') := by
  refine ⟨means_json nofun h, means_json nofun h, Json.exists_form_of_read h,
    fun f hspells htree hportable hfits => ?_, fun ⟨ch, hmem, hch⟩ => not_means_yaml hmem hch⟩
  have hyaml : Means (some .yaml) content (f.tree Word.yamlValue) := by
    obtain ⟨d, hread, hd⟩ := Yaml.exists_read_of_spells hspells hportable hfits
    exact ⟨d, by rw [ofText, if_pos rfl, ofYaml, hread], hd⟩
  have hiff : Means (some .yaml) content t ↔ f.tree Word.yamlValue = t :=
    ⟨hyaml.unique, fun heq => heq ▸ hyaml⟩
  refine ⟨hyaml, hiff, fun hwords => hiff.2 ?_⟩
  have hsame : ∀ w ∈ f.words, w.yamlValue = w.value := fun w hw => by
    rw [Word.yamlValue, if_pos (hwords w hw)]
  rw [f.tree_congr hsame, htree]

/-- No blanks. -/
def noGap : Json.Gap :=
  ⟨[], List.forall_mem_nil _⟩

/-- One blank. -/
def oneBlank : Json.Gap :=
  ⟨[' '], List.forall_mem_singleton.2 rfl⟩

/-- A mapping of a key to a list of a truth value and null. -/
def listedForm : Form :=
  .mapping (.more noGap noGap ⟨[.plain 'a' (by decide)], noGap, oneBlank⟩
    (.list (.more noGap noGap (.word (.name "true" (.bool true) (by simp [Json.wordValues])))
      (.more noGap oneBlank (.word (.name "null" .null (by simp [Json.wordValues]))) (.none noGap))))
    (.none noGap))

theorem fits_listedForm : listedForm.Fits := by
  have hwhole : ∀ g ∈ ([.plain 'a' (by decide)] : Json.Quoted), Yaml.IsWhole g :=
    List.forall_mem_singleton.2 trivial
  exact ⟨⟨hwhole, List.forall_mem_nil _, by decide⟩, ⟨trivial, trivial, trivial⟩, trivial⟩

/-- One thousand, written with an exponent but without a point. -/
def bareThousand : Json.Numeral :=
  ⟨false, ['1'], [], some ⟨'e', none, ['3'], Json.isMark_small, List.forall_mem_singleton.2 rfl, List.cons_ne_nil _ _⟩,
    List.forall_mem_singleton.2 rfl, .inr ⟨'1', [], rfl, by decide⟩, nofun⟩

theorem means_of_read_listed :
    Means none "\x7b\"a\": [true, null]\x7d" (.record [("a", .list [.bool true, .null])]) ∧
      Means (some .yaml) "\x7b\"a\": [true, null]\x7d" (.record [("a", .list [.bool true, .null])]) ∧
      Means none "1e3" (.scalar (.float (Number.ofDecimal false 1 3))) ∧ Means (some .yaml) "1e3" (.text "1e3") := by
  have hlisted : Json.read "\x7b\"a\": [true, null]\x7d" = .ok (.record [("a", .list [.bool true, .null])]) := by
    have hlossless : Json.Lossless (.record [("a", .list [.bool true, .null])]) := by
      refine .record (List.nodup_singleton _) (List.forall_mem_singleton.2 (.list ?_))
      exact List.forall_mem_cons.2 ⟨.bool true, List.forall_mem_singleton.2 .null⟩
    obtain ⟨text, htext, hread⟩ := Json.read_write? hlossless .line "" (List.forall_mem_nil _)
    have hwritten : Json.write? .line (.record [("a", .list [.bool true, .null])]) =
        some "\x7b\"a\": [true, null]\x7d" := by decide
    obtain rfl := Option.some.inj (hwritten.symm.trans htext)
    rwa [String.append_empty] at hread
  have hbare : Json.read "1e3" = .ok (.scalar (.float (Number.ofDecimal false 1 3))) := rfl
  obtain ⟨hnone, -, -, hyaml, -⟩ := means_of_read hlisted
  obtain ⟨hnone', -, -, hyaml', -⟩ := means_of_read hbare
  refine ⟨hnone, ?_, hnone', ?_⟩
  · refine (hyaml listedForm ⟨noGap, noGap, rfl⟩ rfl (List.all_eq_true.1 (by decide)) fits_listedForm).2.2 ?_
    exact List.all_eq_true.1 (by decide)
  · exact (hyaml' (.word (.number bareThousand)) ⟨noGap, noGap, rfl⟩ rfl (List.all_eq_true.1 (by decide)) trivial).1

end Document

end RouteBinding
