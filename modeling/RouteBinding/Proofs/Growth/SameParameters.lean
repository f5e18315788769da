import RouteBinding.Proofs.Growth.Found
import RouteBinding.Proofs.Model.Kind
import RouteBinding.Proofs.Operation.ParameterList

/-!
# The same parameters with more paths

An operation of a tree that is found again in a document with more paths has the same parameters there, though each of
the two descriptions was compiled from the start (`parameters_eq_of_widens`). What a parameter takes from its object is
the same since the objects say the same, and its type is one that no context names.
-/

namespace RouteBinding

open Compilation
open Widening (Matches)

theorem Location.name_injective {a b : Location} (h : a.name = b.name) : a = b := by
  revert h
  cases a <;> cases b <;> decide

theorem Style.name_injective {a b : Style} (h : a.name = b.name) : a = b := by
  revert h
  cases a <;> cases b <;> decide

/-- Where a text is read, it is read at every pointer. -/
theorem Compilation.optionalText_pointer {g : Graph} {entries : List (Scalar × Value)}
    {key pointer : String} {text : Option String} (h : optionalText g entries key pointer = .ok text)
    (pointer' : String) : optionalText g entries key pointer' = .ok text := by
  unfold optionalText at h ⊢
  split at h
  · exact h
  · exact h
  · cases h

theorem Widening.Matches.valueAt?_eq_scalar {ρ : Nat → Nat} {d : Document}
    {entries entries' : List (Scalar × Value)} (h : Matches ρ d entries entries') (key : String)
    (hkey : key.toList.head? ≠ some '/') {s : Scalar} :
    valueAt? key entries' = some (.scalar s) ↔ valueAt? key entries = some (.scalar s) := by
  rw [h.values key hkey]
  simp only [Option.map_eq_some_iff, Value.rename_eq_scalar, exists_eq_right]

section

variable {ρ : Nat → Nat} {added : List (Scalar × Value)} {r r' : Resolver} {p p' : RawParameter}
  {c c' : Compilation}

/-! ## Types -/

/-- A schema that is given the type of a scalar or of an array of scalars is given that type with more paths, too. -/
theorem Compilation.Meant.type_eq (h : Resolver.Widens ρ added r r') (hnew : r.document.Lacks added)
    (hc : Steady r c) (hc' : Steady r' c') {schema : Value} (hschema : r.document.Apart schema)
    {t t' : TypeRef} (ht : Meant r c schema t) (ht' : Meant r' c' (schema.rename ρ) t')
    (hscalar : c.builder.model.IsScalarLike t) : t = t' := by
  obtain ⟨n, -, hform, htyped⟩ := ht.typed hc
  obtain ⟨n', -, hform', htyped'⟩ := ht'.typed hc'
  have hsame : n.form = n'.form := (h.hasForm hnew (.inl hschema) hform).unique hform'
  exact htyped.eq_of_form htyped' hsame hscalar

/-! ## One parameter -/

/-- What objects of the same content give is the same, and so is what is taken where they give nothing. -/
theorem eq_of_given_or_default {α : Type} {f : α → Scalar} (hf : Function.Injective f)
    {given given' : Option Value} (h : given' = given.map (Value.rename ρ)) {a a' default : α}
    (ha : given = some (.scalar (f a)) ∨ given = none ∧ a = default)
    (ha' : given' = some (.scalar (f a')) ∨ given' = none ∧ a' = default) : a = a' := by
  subst h
  rcases ha with rfl | ⟨rfl, rfl⟩
  · rcases ha' with hgiven | ⟨hnone, -⟩
    · exact hf (Value.scalar.inj (Option.some.inj hgiven))
    · cases hnone
  · rcases ha' with hgiven | ⟨-, rfl⟩
    · cases hgiven
    · rfl

/-- Two objects that say the same have one parameter, if its types are the same. -/
theorem ParameterFor.eq_of_same {M M' : Value → TypeRef → Prop} {q q' : Parameter}
    (h : Resolver.Widens ρ added r r') (hp : p.Same ρ r.document p')
    (hq : ParameterFor r M p.entries q) (hq' : ParameterFor r' M' p'.entries q')
    (htype : ∀ schema, r.document.Apart schema → M schema q.type → M' (schema.rename ρ) q'.type →
      q.type = q'.type) : q = q' := by
  have hm := hp.entries
  have hname : q.name = q'.name := by
    have hvalue := (hm.valueAt?_eq_scalar "name" (by decide)).1 hq'.name
    rw [hq.name] at hvalue
    simpa using hvalue
  have hlocation : q.location = q'.location := by
    have hvalue := (hm.valueAt?_eq_scalar "in" (by decide)).1 hq'.location
    rw [hq.location] at hvalue
    exact Location.name_injective (by simpa using hvalue)
  have hrequired : q.required = q'.required := by
    rw [hq.required, hq'.required, hlocation]
    simp only [hm.valueAt?_eq_scalar "required" (by decide)]
  have htypes : q.type = q'.type := by
    obtain ⟨schema, hschema, hmeans⟩ := hq.type
    obtain ⟨schema', hschema', hmeans'⟩ := hq'.type
    rw [hm.values _ (by decide), hschema] at hschema'
    cases hschema'
    exact htype schema (hm.apart_of_valueAt? hschema) hmeans hmeans'
  -- a default is taken from what is equal already: a style by the location, and whether to explode by the style
  have hstyle : q.style = q'.style :=
    eq_of_given_or_default (fun _ _ heq => Style.name_injective (Scalar.text.inj heq))
      (hm.values "style" (by decide)) (hq.style.imp_left And.right)
      (hlocation ▸ hq'.style.imp_left And.right)
  have hexplode : q.explode = q'.explode :=
    eq_of_given_or_default (fun _ _ => Scalar.bool.inj) (hm.keyword? (by decide)) hq.explode
      (hstyle ▸ hq'.explode)
  have hdescription : q.description = q'.description := by
    obtain ⟨pointer, htext⟩ := hq.description
    obtain ⟨pointer', htext'⟩ := hq'.description
    rw [optionalText_grows h hm (by decide), optionalText_pointer htext pointer'] at htext'
    exact Except.ok.inj htext'
  rcases q with ⟨name, location, required, type, style, explode, description⟩
  cases hname
  cases hlocation
  cases hrequired
  cases htypes
  cases hstyle
  cases hexplode
  cases hdescription
  rfl

/-! ## Lists of parameters -/

theorem Compilation.RawParameter.Same.isSkipped_iff {d : Document} (hp : p.Same ρ d p') :
    p'.IsSkipped ↔ p.IsSkipped := by
  unfold RawParameter.IsSkipped
  simp only [hp.entries.valueAt?_eq_scalar "in" (by decide)]

/-- The objects that bind an operation say the same. -/
theorem bindingObjects_grows (h : Resolver.Widens ρ added r r') {ps ps' qs qs' : List RawParameter}
    (hps : List.Forall₂ (RawParameter.Same ρ r.document) ps ps')
    (hqs : List.Forall₂ (RawParameter.Same ρ r.document) qs qs') :
    List.Forall₂ (RawParameter.Same ρ r.document)
      (bindingObjects r.document.graph ps qs) (bindingObjects r'.document.graph ps' qs') := by
  have hmerged := mergeParameters_grows h hps hqs
  rw [mergeParameters_eq, mergeParameters_eq] at hmerged
  refine List.rel_filter (fun p p' hp => ?_) hmerged
  simp only [decide_eq_true_eq, hp.isSkipped_iff]

/-- Operations of one path and method that say what objects of the same content say have the same parameters. -/
theorem parameters_eq_of_widens (h : Resolver.Widens ρ added r r') (hnew : r.document.Lacks added)
    (hc : Steady r c) (hc' : Steady r' c') {item item' entries entries' : List (Scalar × Value)}
    (hitem : Matches ρ r.document item item') (hentries : Matches ρ r.document entries entries')
    {op op' : Operation} (hop : ParametersOf r (Meant r c) item entries op)
    (hop' : ParametersOf r' (Meant r' c') item' entries' op') (hpath : op'.path = op.path)
    (hmethod : op'.method = op.method)
    (hscalar : ∀ q ∈ op.parameters, c.builder.model.IsScalarLike q.type) :
    op.parameters = op'.parameters := by
  obtain ⟨ofPath, own, hofPath, hown, hbound⟩ := hop.objects
  obtain ⟨ofPath', own', hofPath', hown', hbound'⟩ := hop'.objects
  rw [hpath] at hofPath' hown'
  rw [hmethod] at hown'
  -- the declared objects are those of the tree
  obtain ⟨ps, hps, hsameOfPath⟩ := h.exists_declares hnew hitem hofPath
  obtain ⟨qs, hqs, hsameOwn⟩ := h.exists_declares hnew hentries hown
  obtain rfl := hps.unique hofPath'
  obtain rfl := hqs.unique hown'
  have hsame := bindingObjects_grows h hsameOfPath hsameOwn
  have hfirst : List.Forall₂ (fun (q : Parameter) (p' : RawParameter) => ∃ p : RawParameter,
      p.Same ρ r.document p' ∧ ParameterFor r (Meant r c) p.entries q) op.parameters _ :=
    forall₂_comp hbound.flip hsame fun q p p' hq hp => ⟨p, hp, hq⟩
  have hboth : List.Forall₂ (fun q q' => ∃ p p' : RawParameter, p.Same ρ r.document p' ∧
      ParameterFor r (Meant r c) p.entries q ∧ ParameterFor r' (Meant r' c') p'.entries q')
      op.parameters op'.parameters := by
    refine forall₂_comp hfirst hbound' fun q p' q' hq hq' => ?_
    obtain ⟨p, hp, hfor⟩ := hq
    exact ⟨p, p', hp, hfor, hq'⟩
  have heq : List.Forall₂ Eq op.parameters op'.parameters := by
    refine forall₂_mono_of_mem hboth fun q hq q' hqq' => ?_
    obtain ⟨p, p', hp, hfor, hfor'⟩ := hqq'
    exact hfor.eq_of_same h hp hfor' fun schema hschema ht ht' =>
      ht.type_eq h hnew hc hc' hschema ht' (hscalar q hq)
  rwa [List.forall₂_eq_eq_eq] at heq

end

end RouteBinding
