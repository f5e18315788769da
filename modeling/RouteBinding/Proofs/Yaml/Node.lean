import RouteBinding.Proofs.Yaml.Tokens
import RouteBinding.Yaml.Node

/-!
# The nodes of a JSON text

The tokens of a JSON text describe one node for every value and every key of it, in the order in which they are written
(`ofTokens_form`).
-/

namespace RouteBinding

namespace Json

open Yaml (Node)

/-! ## Nodes of forms -/

mutual

/-- The count of the values and keys of a value. -/
def Form.count : Form → Nat
  | .word _ => 1
  | .text _ => 1
  | .list items => items.count + 1
  | .mapping entries => entries.count + 1

/-- The count of the values and keys of the items of a list. -/
def Items.count : Items → Nat
  | .none _ => 0
  | .more _ _ item rest => item.count + rest.count

/-- The count of the values and keys of the entries of a mapping. -/
def Entries.count : Entries → Nat
  | .none _ => 0
  | .more _ _ _ value rest => 1 + (value.count + rest.count)

end

/-- The names of the items of a list whose nodes begin at `n`. -/
def Items.ids : Items → (n : Nat) → List Nat
  | .none _, _ => []
  | .more _ _ item rest, n => n :: rest.ids (n + item.count)

/-- The names of the keys and values of a mapping whose nodes begin at `n`. -/
def Entries.ids : Entries → (n : Nat) → List (Nat × Nat)
  | .none _, _ => []
  | .more _ _ _ value rest, n => (n, n + 1) :: rest.ids (n + 1 + value.count)

/-- The node of a text. -/
def Quoted.node (q : Quoted) : Node :=
  ⟨.text, .scalar q.value⟩

mutual

/-- The nodes of a value, which begin at `n`. -/
def Form.nodes : Form → (n : Nat) → List Node
  | .word w, _ => [⟨Yaml.Tag.implied (String.ofList w.chars), .scalar (String.ofList w.chars)⟩]
  | .text q, _ => [q.node]
  | .list items, n => ⟨.sequence, .sequence (items.ids (n + 1))⟩ :: items.nodes (n + 1)
  | .mapping entries, n => ⟨.mapping, .mapping (entries.ids (n + 1))⟩ :: entries.nodes (n + 1)

/-- The nodes of the items of a list, which begin at `n`. -/
def Items.nodes : Items → (n : Nat) → List Node
  | .none _, _ => []
  | .more _ _ item rest, n => item.nodes n ++ rest.nodes (n + item.count)

/-- The nodes of the entries of a mapping, which begin at `n`. -/
def Entries.nodes : Entries → (n : Nat) → List Node
  | .none _, _ => []
  | .more _ _ key value rest, n => key.name.node :: (value.nodes (n + 1) ++ rest.nodes (n + 1 + value.count))

end

mutual

/-- A value has as many nodes as it counts. -/
theorem Form.length_nodes (f : Form) (n : Nat) : (f.nodes n).length = f.count := by
  cases f with
  | word w => rfl
  | text q => rfl
  | list items => rw [Form.nodes, List.length_cons, items.length_nodes, Form.count]
  | mapping entries => rw [Form.nodes, List.length_cons, entries.length_nodes, Form.count]

theorem Items.length_nodes (items : Items) (n : Nat) : (items.nodes n).length = items.count := by
  cases items with
  | none gap => rfl
  | more before after item rest =>
    rw [Items.nodes, List.length_append, item.length_nodes, rest.length_nodes, Items.count]

theorem Entries.length_nodes (entries : Entries) (n : Nat) : (entries.nodes n).length = entries.count := by
  cases entries with
  | none gap => rfl
  | more before after key value rest =>
    rw [Entries.nodes, List.length_cons, List.length_append, value.length_nodes, rest.length_nodes, Entries.count,
      Nat.add_comm]

end

end Json

namespace Yaml

open Assemble
open Json (Form Items Entries separator)

variable {s s' s'' : Assembly} {t : Token} {ts more : List Token} {fuel : Nat} {inBlock mayBeIndentless : Bool}

/-! ## Steps -/

/-- With other tokens to come and with more nodes. -/
def Assembly.after (s : Assembly) (ts : List Token) (ns : List Node) : Assembly :=
  { s with tokens := ts, nodes := s.nodes ++ ns.toArray }

/-- What is consumed and made one after another is consumed and made together. -/
theorem Assembly.after_after (s : Assembly) (ts ts' : List Token) (ns ns' : List Node) :
    (s.after ts ns).after ts' ns' = s.after ts' (ns ++ ns') := by
  simp [after]

/-- An assembly has the nodes that it had and those that were made. -/
theorem Assembly.size_after (s : Assembly) (ts : List Token) (ns : List Node) :
    (s.after ts ns).nodes.size = s.nodes.size + ns.length := by
  simp [after]

theorem run_peek (hs : s.tokens = t :: ts) : peek.run s = .ok (t, s) := by
  obtain ⟨tokens, fault, nodes, anchors, handles⟩ := s
  cases hs
  rfl

/-- The next token is taken if it is the one that is asked for. -/
theorem run_accept (hs : s.tokens = t :: ts) : (accept t).run s = .ok (true, s.after ts []) := by
  rw [accept, run_bind_ok (run_peek hs), if_pos rfl]
  simp [Assembly.after, advance, hs]
  rfl

/-- The next token is left if another one is asked for. -/
theorem run_accept_of_ne {t' : Token} (hs : s.tokens = t :: ts) (hne : t ≠ t') :
    (accept t').run s = .ok (false, s) := by
  rw [accept, run_bind_ok (run_peek hs), if_neg hne]
  rfl

/-- The tokens that a value begins with. -/
def BeginsValue : Token → Prop
  | .scalar .. | .flowSequenceStart | .flowMappingStart => True
  | _ => False

/-- A value has a first token, and one that values begin with. -/
theorem exists_tokens_eq_cons (f : Form) : ∃ t ts, f.tokens = t :: ts ∧ BeginsValue t := by
  cases f with
  | word w => exact ⟨_, _, rfl, trivial⟩
  | text q => exact ⟨_, _, rfl, trivial⟩
  | list items => exact ⟨_, _, rfl, trivial⟩
  | mapping entries => exact ⟨_, _, rfl, trivial⟩

/-! ## Nodes -/

/-- A node that is made empty is filled later. -/
theorem set_append (nodes : Array Node) (ns : List Node) (a b : Node) :
    (nodes ++ (a :: ns).toArray).set! nodes.size b = nodes ++ (b :: ns).toArray := by
  apply Array.ext'
  simp [Array.set!_eq_setIfInBounds]

/-- A scalar is made a node of its kind. -/
theorem run_node_scalar {text : String} {isPlain : Bool} (hs : s.tokens = .scalar text isPlain :: ts) :
    (node (fuel + 1) inBlock mayBeIndentless).run s =
      .ok (s.nodes.size, s.after ts [⟨scalarKind none text isPlain, .scalar text⟩]) := by
  obtain ⟨tokens, fault, nodes, anchors, handles⟩ := s
  cases hs
  rw [node, Assembly.after, ← set_append nodes [] ⟨.null, .scalar ""⟩]
  rfl

/-- A sequence is made a node of the nodes of its items, once the closing bracket is reached. -/
theorem run_node_sequence {ids : List Nat} (ns : List Node) (hs : s.tokens = .flowSequenceStart :: ts)
    (hitems : (flowItems fuel true).run (s.after ts [⟨.null, .scalar ""⟩]) =
      .ok (ids, (s.after ts [⟨.null, .scalar ""⟩]).after more ns)) :
    (node (fuel + 1) inBlock mayBeIndentless).run s =
      .ok (s.nodes.size, s.after more (⟨.sequence, .sequence ids⟩ :: ns)) := by
  have hfill := set_append s.nodes ns ⟨.null, .scalar ""⟩ ⟨.sequence, .sequence ids⟩
  rw [Assembly.after_after] at hitems
  obtain ⟨tokens, fault, nodes, anchors, handles⟩ := s
  cases hs
  rw [node, Assembly.after, ← hfill]
  show ((flowItems fuel true).run ⟨ts, fault, nodes.push ⟨.null, .scalar ""⟩, anchors, handles⟩ >>= _) = _
  rw [show (flowItems fuel true).run ⟨ts, fault, nodes.push ⟨.null, .scalar ""⟩, anchors, handles⟩ = _ from hitems]
  rfl

/-- A mapping is made a node of the nodes of its entries, once the closing brace is reached. -/
theorem run_node_mapping {ids : List (Nat × Nat)} (ns : List Node) (hs : s.tokens = .flowMappingStart :: ts)
    (hentries : (flowEntries fuel true).run (s.after ts [⟨.null, .scalar ""⟩]) =
      .ok (ids, (s.after ts [⟨.null, .scalar ""⟩]).after more ns)) :
    (node (fuel + 1) inBlock mayBeIndentless).run s =
      .ok (s.nodes.size, s.after more (⟨.mapping, .mapping ids⟩ :: ns)) := by
  have hfill := set_append s.nodes ns ⟨.null, .scalar ""⟩ ⟨.mapping, .mapping ids⟩
  rw [Assembly.after_after] at hentries
  obtain ⟨tokens, fault, nodes, anchors, handles⟩ := s
  cases hs
  rw [node, Assembly.after, ← hfill]
  show ((flowEntries fuel true).run ⟨ts, fault, nodes.push ⟨.null, .scalar ""⟩, anchors, handles⟩ >>= _) = _
  rw [show (flowEntries fuel true).run ⟨ts, fault, nodes.push ⟨.null, .scalar ""⟩, anchors, handles⟩ = _ from hentries]
  rfl

/-! ## Items and entries -/

/-- At the closing bracket there are no items left. -/
theorem run_flowItems_end (isFirst : Bool) (hs : s.tokens = .flowSequenceEnd :: ts) :
    (flowItems (fuel + 1) isFirst).run s = .ok ([], s.after ts []) := by
  rw [flowItems, run_bind_ok (run_accept hs)]
  rfl

/-- At the closing brace there are no entries left. -/
theorem run_flowEntries_end (isFirst : Bool) (hs : s.tokens = .flowMappingEnd :: ts) :
    (flowEntries (fuel + 1) isFirst).run s = .ok ([], s.after ts []) := by
  rw [flowEntries, run_bind_ok (run_accept hs)]
  rfl

theorem after_eq_self (hs : s.tokens = ts) : s.after ts [] = s := by
  simp [Assembly.after, ← hs]

/-- An item is made a node, and then those behind the comma. -/
theorem run_flowItems_cons {isFirst : Bool} {item : Nat} {items : List Nat}
    (hs : s.tokens = separator isFirst ++ t :: ts) (ht : BeginsValue t)
    (hitem : (node fuel false false).run (s.after (t :: ts) []) = .ok (item, s'))
    (hitems : (flowItems fuel false).run s' = .ok (items, s'')) :
    (flowItems (fuel + 1) isFirst).run s = .ok (item :: items, s'') := by
  have hend : t ≠ .flowSequenceEnd := by rintro rfl; exact ht
  have hkey : t ≠ .key := by rintro rfl; exact ht
  -- behind the comma, if there is one, the item is read
  have hnext : (s.after (t :: ts) []).tokens = t :: ts := rfl
  have hread := run_bind_ok (f := fun item => do return item :: (← flowItems fuel false)) hitem
  rw [run_bind_ok hitems] at hread
  cases isFirst with
  | true =>
    have hs' : s.tokens = t :: ts := hs
    rw [after_eq_self hs'] at hnext hread
    rw [flowItems, run_bind_ok (run_accept_of_ne hs hend), if_neg Bool.false_ne_true]
    dsimp only
    rw [if_neg (by decide), run_bind_ok (run_accept_of_ne hnext hend), if_neg Bool.false_ne_true,
      run_bind_ok (run_accept_of_ne hnext hkey), if_neg Bool.false_ne_true]
    exact hread
  | false =>
    have hcomma : (accept .flowItem).run s = .ok (true, s.after (t :: ts) []) := run_accept hs
    rw [flowItems, run_bind_ok (run_accept_of_ne hs (by decide)), if_neg Bool.false_ne_true]
    dsimp only
    rw [if_pos (by decide), run_bind_ok hcomma, if_neg (by decide), run_bind_ok (run_accept_of_ne hnext hend),
      if_neg Bool.false_ne_true, run_bind_ok (run_accept_of_ne hnext hkey), if_neg Bool.false_ne_true]
    exact hread

/-- An entry is made two nodes, and then those behind the comma. -/
theorem run_flowEntries_cons {isFirst : Bool} {pair : Nat × Nat} {entries : List (Nat × Nat)}
    (hs : s.tokens = separator isFirst ++ .key :: ts)
    (hpair : (flowPair fuel .flowMappingEnd).run (s.after ts []) = .ok (pair, s'))
    (hentries : (flowEntries fuel false).run s' = .ok (entries, s'')) :
    (flowEntries (fuel + 1) isFirst).run s = .ok (pair :: entries, s'') := by
  -- behind the comma, if there is one, the entry is read
  have hnext : (s.after (.key :: ts) []).tokens = .key :: ts := rfl
  have hkey : (accept .key).run (s.after (.key :: ts) []) = .ok (true, s.after ts []) := run_accept hnext
  have hread := run_bind_ok (f := fun pair => do return pair :: (← flowEntries fuel false)) hpair
  rw [run_bind_ok hentries] at hread
  cases isFirst with
  | true =>
    have hs' : s.tokens = .key :: ts := hs
    rw [after_eq_self hs'] at hnext hkey
    rw [flowEntries, run_bind_ok (run_accept_of_ne hs (by decide)), if_neg Bool.false_ne_true]
    dsimp only
    rw [if_neg (by decide), run_bind_ok (run_accept_of_ne hnext (by decide)), if_neg Bool.false_ne_true,
      run_bind_ok hkey, if_pos rfl]
    exact hread
  | false =>
    have hcomma : (accept .flowItem).run s = .ok (true, s.after (.key :: ts) []) := run_accept hs
    rw [flowEntries, run_bind_ok (run_accept_of_ne hs (by decide)), if_neg Bool.false_ne_true]
    dsimp only
    rw [if_pos (by decide), run_bind_ok hcomma, if_neg (by decide), run_bind_ok (run_accept_of_ne hnext (by decide)),
      if_neg Bool.false_ne_true, run_bind_ok hkey, if_pos rfl]
    exact hread

/-- None of some tokens is next if another one is. -/
theorem run_isNext_of_notMem {others : List Token} (hs : s.tokens = t :: ts) (hmem : t ∉ others) :
    (isNext others).run s = .ok (false, s) := by
  rw [isNext, run_bind_ok (run_peek hs)]
  simp [hmem]
  rfl

/-- A key that is a text, with its colon and its value. -/
theorem run_flowPair {name : String} (value : Nat) (hs : s.tokens = .scalar name false :: .value :: t :: ts)
    (ht : BeginsValue t)
    (hvalue : (node (fuel + 1) false false).run (s.after (t :: ts) [⟨.text, .scalar name⟩]) = .ok (value, s')) :
    (flowPair (fuel + 2) .flowMappingEnd).run s = .ok ((s.nodes.size, value), s') := by
  have hkey : (node (fuel + 1) false false).run s =
      .ok (s.nodes.size, s.after (.value :: t :: ts) [⟨.text, .scalar name⟩]) := run_node_scalar hs
  have hcolon : (accept .value).run (s.after (.value :: t :: ts) [⟨.text, .scalar name⟩]) =
      .ok (true, s.after (t :: ts) [⟨.text, .scalar name⟩]) := by
    rw [run_accept rfl, Assembly.after_after, List.append_nil]
  have hitem : t ∉ [.flowItem, .flowMappingEnd] := by
    intro hmem
    rcases List.mem_pair.1 hmem with rfl | rfl <;> exact ht
  rw [flowPair, run_bind_ok (run_isNext_of_notMem hs (by simp)), if_neg Bool.false_ne_true, run_bind_ok hkey,
    run_bind_ok hcolon]
  dsimp only
  rw [if_pos rfl, run_bind_ok (run_isNext_of_notMem rfl hitem), if_neg Bool.false_ne_true, run_bind_ok hvalue]
  rfl

/-! ## Forms -/

/-- Items have at least the closing bracket. -/
theorem tokens_items_pos (items : Items) (isFirst : Bool) : 0 < (items.tokens isFirst).length := by
  cases items with
  | none gap => exact Nat.one_pos
  | more before after item rest =>
    obtain ⟨t, ts, htokens, -⟩ := exists_tokens_eq_cons item
    rw [Items.tokens, List.length_append, List.length_append, htokens, List.length_cons]
    omega

/-- Entries have at least the closing brace. -/
theorem tokens_entries_pos (entries : Entries) (isFirst : Bool) : 0 < (entries.tokens isFirst).length := by
  cases entries with
  | none gap => exact Nat.one_pos
  | more before after key value rest =>
    rw [Entries.tokens, List.length_append, List.length_append, List.length_cons]
    omega

section Forms

variable (s : Assembly)

mutual

/-- The tokens of a value describe its nodes. Each step of the reader takes a token. -/
theorem run_node_form (f : Form) (more : List Token) (ns : List Node) {n : Nat} (fuel : Nat)
    (inBlock mayBeIndentless : Bool) (hfuel : f.tokens.length ≤ fuel) (hn : s.nodes.size + ns.length = n) :
    (node fuel inBlock mayBeIndentless).run (s.after (f.tokens ++ more) ns) =
      .ok (n, s.after more (ns ++ f.nodes n)) := by
  obtain ⟨t, ts, htokens, -⟩ := exists_tokens_eq_cons f
  obtain ⟨fuel, rfl⟩ : ∃ k, fuel = k + 1 := ⟨fuel - 1, by rw [htokens, List.length_cons] at hfuel; omega⟩
  have hsize : (s.after (f.tokens ++ more) ns).nodes.size = n := (s.size_after _ ns).trans hn
  cases f with
  | word w => rw [run_node_scalar rfl, hsize, Assembly.after_after]; rfl
  | text q => rw [run_node_scalar rfl, hsize, Assembly.after_after]; rfl
  | list items =>
    have hitems := run_flowItems items true more (ns ++ [⟨.null, .scalar ""⟩]) (n := n + 1) fuel
      (Nat.le_of_succ_le_succ hfuel) (by simp; omega)
    rw [run_node_sequence (items.nodes (n + 1)) rfl, hsize, Assembly.after_after]
    · rfl
    · rw [Assembly.after_after, Assembly.after_after]
      exact hitems
  | mapping entries =>
    have hentries := run_flowEntries entries true more (ns ++ [⟨.null, .scalar ""⟩]) (n := n + 1) fuel
      (Nat.le_of_succ_le_succ hfuel) (by simp; omega)
    rw [run_node_mapping (entries.nodes (n + 1)) rfl, hsize, Assembly.after_after]
    · rfl
    · rw [Assembly.after_after, Assembly.after_after]
      exact hentries

/-- The tokens of items are consumed, and their nodes made in order. -/
theorem run_flowItems (items : Items) (isFirst : Bool) (more : List Token) (ns : List Node) {n : Nat} (fuel : Nat)
    (hfuel : (items.tokens isFirst).length ≤ fuel) (hn : s.nodes.size + ns.length = n) :
    (flowItems fuel isFirst).run (s.after (items.tokens isFirst ++ more) ns) =
      .ok (items.ids n, s.after more (ns ++ items.nodes n)) := by
  cases items with
  | none gap =>
    obtain ⟨fuel, rfl⟩ : ∃ k, fuel = k + 1 := ⟨fuel - 1, by simp [Items.tokens] at hfuel; omega⟩
    rw [run_flowItems_end isFirst rfl, Assembly.after_after]
    rfl
  | more before after item rest =>
    obtain ⟨t, ts, htokens, ht⟩ := exists_tokens_eq_cons item
    have hrest := tokens_items_pos rest false
    rw [Items.tokens, List.length_append, List.length_append] at hfuel
    obtain ⟨fuel, rfl⟩ : ∃ k, fuel = k + 1 := ⟨fuel - 1, by omega⟩
    have hitem := run_node_form item (rest.tokens false ++ more) ns fuel false false (by omega) hn
    have hitems := run_flowItems rest false more (ns ++ item.nodes n) (n := n + item.count) fuel
      (by rw [htokens, List.length_cons] at hfuel; omega)
      (by rw [List.length_append, item.length_nodes]; omega)
    rw [htokens] at hitem
    have hs : (s.after ((Items.more before after item rest).tokens isFirst ++ more) ns).tokens =
        separator isFirst ++ t :: (ts ++ (rest.tokens false ++ more)) := by
      simp [Assembly.after, Items.tokens, htokens]
    rw [run_flowItems_cons hs ht ?_ hitems, List.append_assoc]
    · rfl
    · rw [Assembly.after_after, List.append_nil]
      exact hitem

/-- The tokens of entries are consumed, and their nodes made in order. -/
theorem run_flowEntries (entries : Entries) (isFirst : Bool) (more : List Token) (ns : List Node) {n : Nat} (fuel : Nat)
    (hfuel : (entries.tokens isFirst).length ≤ fuel) (hn : s.nodes.size + ns.length = n) :
    (flowEntries fuel isFirst).run (s.after (entries.tokens isFirst ++ more) ns) =
      .ok (entries.ids n, s.after more (ns ++ entries.nodes n)) := by
  cases entries with
  | none gap =>
    obtain ⟨fuel, rfl⟩ : ∃ k, fuel = k + 1 := ⟨fuel - 1, by simp [Entries.tokens] at hfuel; omega⟩
    rw [run_flowEntries_end isFirst rfl, Assembly.after_after]
    rfl
  | more before after key value rest =>
    obtain ⟨t, ts, htokens, ht⟩ := exists_tokens_eq_cons value
    have hrest := tokens_entries_pos rest false
    rw [Entries.tokens, List.length_append, List.length_append, List.length_append] at hfuel
    simp only [List.length_cons, List.length_nil] at hfuel
    obtain ⟨fuel, rfl⟩ : ∃ k, fuel = k + 3 := ⟨fuel - 3, by omega⟩
    let behindKey := rest.tokens false ++ more
    have hvalue := run_node_form value behindKey (ns ++ [key.name.node]) (n := n + 1) (fuel + 1) false false
      (by omega) (by simp; omega)
    have hentries := run_flowEntries rest false more (ns ++ [key.name.node] ++ value.nodes (n + 1))
      (n := n + 1 + value.count) (fuel + 2) (by rw [htokens, List.length_cons] at hfuel; omega)
      (by simp [value.length_nodes]; omega)
    rw [htokens] at hvalue
    have hs : (s.after ((Entries.more before after key value rest).tokens isFirst ++ more) ns).tokens =
        separator isFirst ++ .key :: .scalar key.name.value false :: .value :: t :: (ts ++ behindKey) := by
      simp [Assembly.after, Entries.tokens, htokens, behindKey]
    refine (run_flowEntries_cons hs (run_flowPair (n + 1) rfl ht ?_) hentries).trans ?_
    · rw [Assembly.after_after, Assembly.after_after]
      exact hvalue
    · rw [Assembly.after_after, List.append_nil, Assembly.size_after, hn]
      simp [Entries.ids, Entries.nodes]

end

end Forms

/-! ## Documents -/

theorem run_refuseMore (hs : s.tokens = [.streamEnd]) : (refuseMore fuel).run s = .ok ((), s) := by
  have hends : (skipEnds fuel).run s = .ok ((), s) := by
    cases fuel with
    | zero => rfl
    | succ fuel =>
      rw [skipEnds, run_bind_ok (run_accept_of_ne hs (by decide))]
      rfl
  have hnext : (isNext [.streamEnd]).run s = .ok (true, s) := by
    rw [isNext, run_bind_ok (run_peek hs)]
    rfl
  rw [refuseMore, run_bind_ok hends, run_bind_ok hnext]
  rfl

/-- A stream of one value is the document of that value. -/
theorem run_document {root : Nat} (hs : s.tokens = t :: ts) (ht : BeginsValue t)
    (hnode : (node fuel true false).run s = .ok (root, s')) (hend : s'.tokens = [.streamEnd]) :
    (document fuel).run s = .ok (some root, s') := by
  have hread : (do let root ← node fuel true false; refuseMore fuel; return some root : Assemble _).run s =
      .ok (some root, s') := by
    rw [run_bind_ok hnode, run_bind_ok (run_refuseMore hend)]
    rfl
  rw [document, run_bind_ok (run_peek hs)]
  cases t with
  | scalar text isPlain => exact hread
  | flowSequenceStart => exact hread
  | flowMappingStart => exact hread
  | _ => exact ht.elim

/-- The tokens of a value alone describe its nodes, of which it is the first. -/
theorem ofTokens_form (f : Form) :
    NodeGraph.ofTokens ⟨f.tokens ++ [.streamEnd], none⟩ = .ok ⟨(f.nodes 0).toArray, some 0⟩ := by
  obtain ⟨t, ts, htokens, ht⟩ := exists_tokens_eq_cons f
  let s : Assembly := ⟨f.tokens ++ [.streamEnd], .malformed, #[], [], defaultHandles⟩
  have hstart : s.after (f.tokens ++ [.streamEnd]) [] = s := after_eq_self rfl
  have hnode := run_node_form s f [.streamEnd] [] (n := 0) (2 * s.tokens.length + 4) true false
    (by simp [s]; omega) rfl
  rw [hstart, List.nil_append] at hnode
  have hs : s.tokens = t :: (ts ++ [.streamEnd]) := by simp [s, htokens]
  have hdocument := run_document hs ht hnode rfl
  show ((document (2 * s.tokens.length + 4)).run s >>= _) = _
  rw [hdocument]
  show Except.ok (NodeGraph.mk (#[] ++ (f.nodes 0).toArray) (some 0)) = _
  rw [Array.empty_append]

end Yaml

end RouteBinding
