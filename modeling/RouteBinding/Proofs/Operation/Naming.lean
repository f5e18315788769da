import RouteBinding.Proofs.Model.Naming
import RouteBinding.Proofs.Naming.Counter
import RouteBinding.Proofs.Operation.Collected
import RouteBinding.Proofs.Operation.Walk

/-!
# The names of operations

Every operation of a description whose texts can be read asks for a name (`Resolver.nameRequests`), and the names are
given for these requests one after the other, whether an operation is then compiled or refused
(`Compilation.gave_compilePaths`). Nothing else takes a name. What is named behind the name of an operation is a name
for generated code, since the name of the operation is one.
-/

namespace RouteBinding

open Naming (GetsAll IsName IsNamePart isNamePart_namePart isNamePart_of_all)
open Step (Gives Keeps)

/-! ## Requests -/

/-- What an operation asks for a name with: its method, its path, and the identifier that it declares. -/
structure NameRequest where
  method : Method
  path : String
  operationId : Option String

/-- The name that is given for a request if it is free. -/
def NameRequest.base (q : NameRequest) : String :=
  Naming.operationName q.method.name q.path q.operationId

/-- The request that an operation was named for. -/
def Operation.request (op : Operation) : NameRequest :=
  ⟨op.method, op.path, op.operationId⟩

namespace Resolver

/-- The text under a key, or nothing where there is no value but null; `none` if there is another value. -/
def readText? (key : String) (entries : List (Scalar × Value)) : Option (Option String) :=
  match keyword? key entries with
  | none => some none
  | some (.scalar (.text s)) => some (some s)
  | some _ => none

/-- The request of the operation of a method, unless its identifier or its summary is no text. -/
def nameRequest? (r : Resolver) (path : String) (item : List (Scalar × Value)) (method : Method) :
    Option NameRequest := do
  let entries ← r.operation? item method
  let operationId ← readText? "operationId" entries
  let _ ← readText? "summary" entries
  return ⟨method, path, operationId⟩

/-- The requests of the operations in one entry of the paths, in the order of the methods. -/
def entryRequests (r : Resolver) (e : Scalar × Value) : List NameRequest :=
  match e.1, r.document.graph.entries? e.2 with
  | .text path, some item => Method.all.filterMap (r.nameRequest? path item)
  | _, _ => []

/-- The requests of the operations of a description, path by path as they stand. -/
def nameRequests (r : Resolver) : List NameRequest :=
  (r.paths?.getD []).flatMap r.entryRequests

end Resolver

namespace Compilation

variable {r : Resolver} {taken : List String} {c c' c'' : Compilation} {operation : String}

/-! ## Steps that take no name -/

/-- A compilation in which some names are taken, and the types have names for generated code. -/
structure Named (taken : List String) (c : Compilation) : Prop where
  names : c.names = taken
  types : c.builder.model.WellNamed

/-- The type of a schema is built under a name for generated code, and no name is taken. -/
theorem named_typeOf {context : String} (hcontext : IsName context) (raw : Value) (pointer : String) :
    Keeps (Named taken) (typeOf r raw pointer context) (fun _ => True) fun _ _ => True := by
  have hread : Keeps (fun _ => True) (r.resolve raw pointer) (fun _ => True) fun _ _ => True :=
    fun _ _ => ⟨trivial, fun _ _ => trivial, fun _ _ => trivial⟩
  have hnode : Keeps (Named taken) (resolveSchema r raw pointer) (fun _ => True) fun _ _ => True :=
    hread.zoom (fun _ _ => trivial) (fun _ _ hc _ => ⟨hc.names, hc.types⟩) fun _ _ _ _ => trivial
  refine hnode.bind fun n _ => Step.keeps_get_bind fun c hc => ?_
  obtain ⟨htypes, -⟩ := TypeBuilder.keepsNames_refFor (n := n) (fun _ _ => hcontext) c.builder hc.types
  rcases hrun : TypeBuilder.refFor n context c.builder with ⟨outcome, builder⟩
  rw [hrun] at htypes
  refine Keeps.bind (Step.keeps_set ⟨hc.names, htypes⟩) fun _ _ => ?_
  exact Step.keeps_ofExcept (fun _ _ => trivial) fun _ _ _ => trivial

/-- Parts of operations take no names, and give types names for generated code. -/
def naming (r : Resolver) (taken : List String) : Discipline r where
  inv := Named taken
  expects _ _ := True
  error _ _ _ := trivial
  breakdown _ _ := trivial
  record _ _ hc _ := ⟨hc.names, hc.types⟩
  notice _ _ _ hc := ⟨hc.names, hc.types⟩
  remember _ _ hc := ⟨hc.names, hc.types⟩
  typeOf _ hcontext := named_typeOf hcontext _ _

/-- A step that takes no name leaves those that are taken as they are. -/
theorem named_of_gives {α : Type} {step : Compile α} {good : α → Prop} {a : α}
    (hstep : (naming r c.names).NeverFails step good) (hc : c.builder.model.WellNamed) (h : Gives step c a c') :
    Named c.names c' ∧ good a := by
  obtain ⟨hnamed, hgood, -⟩ := hstep c ⟨rfl, hc⟩
  rw [h.2] at hnamed
  exact ⟨hnamed, hgood a h.1⟩

theorem named_of_record {e : CompileError} {x : PUnit} (hc : c.builder.model.WellNamed)
    (h : Gives (record e) c x c') : Named c.names c' := by
  obtain rfl : { c with errors := c.errors ++ [e] } = c' := h.2
  exact ⟨rfl, hc⟩

/-! ## Requests one after the other -/

/-- From one compilation to a later one names were given for requests. The operations that were compiled have names of
those, each that of its own request. -/
structure Gave (requests : List NameRequest) (operations : List Operation) (c c' : Compilation) : Prop where
  given : ∃ names, GetsAll c.names (requests.map (·.base)) names ∧ c'.names = c.names ++ names ∧
    (operations.map fun op => (op.request, op.name)).Sublist (requests.zip names)
  types : c'.builder.model.WellNamed

theorem Gave.none (h : Named c.names c') : Gave [] [] c c' :=
  ⟨⟨[], .nil, by rw [h.names, List.append_nil], List.Sublist.refl []⟩, h.types⟩

theorem Gave.append {requests requests' : List NameRequest} {operations operations' : List Operation}
    (h : Gave requests operations c c') (h' : Gave requests' operations' c' c'') :
    Gave (requests ++ requests') (operations ++ operations') c c'' := by
  obtain ⟨names, hgiven, hnames, hsub⟩ := h.given
  obtain ⟨names', hgiven', hnames', hsub'⟩ := h'.given
  have hlength : requests.length = names.length := by
    rw [← hgiven.length_eq, List.length_map]
  refine ⟨⟨names ++ names', ?_, by rw [hnames', hnames, List.append_assoc], ?_⟩, h'.types⟩
  · rw [List.map_append]
    exact hgiven.append (hnames ▸ hgiven')
  · rw [List.map_append, List.zip_append hlength]
    exact hsub.append hsub'

/-- Operations that are compiled have names for generated code. -/
theorem Gave.isName {requests : List NameRequest} {operations : List Operation} (h : Gave requests operations c c') :
    ∀ name ∈ operations.map (·.name), IsName name := by
  obtain ⟨names, hgiven, -, hsub⟩ := h.given
  have hnames : ∀ name ∈ names, IsName name := hgiven.isName fun base hbase => by
    obtain ⟨q, -, rfl⟩ := List.mem_map.1 hbase
    exact (Naming.isName_operationName _ _ _).1
  intro name hname
  obtain ⟨op, hop, rfl⟩ := List.mem_map.1 hname
  exact hnames _ (List.of_mem_zip (hsub.subset (List.mem_map_of_mem hop))).2

/-- A name is taken for a request, and what follows compiles the operation of that name or nothing. -/
theorem Gave.of_name {step : Compile (Option Operation)} {q : NameRequest} {name : String} {o : Option Operation}
    (hgets : Naming.Gets c.names q.base name) (hc : c.builder.model.WellNamed)
    (hstep : (naming r (c.names ++ [name])).NeverFails step fun o => ∀ op ∈ o, op.request = q ∧ op.name = name)
    (h : Gives step { c with names := c.names ++ [name] } o c') : Gave [q] o.toList c c' := by
  obtain ⟨hnamed, hgood, -⟩ := hstep { c with names := c.names ++ [name] } ⟨rfl, hc⟩
  rw [h.2] at hnamed
  refine ⟨⟨[name], .cons hgets .nil, hnamed.names, ?_⟩, hnamed.types⟩
  cases o with
  | none => exact List.nil_sublist _
  | some op =>
    obtain ⟨hrequest, hname⟩ := hgood _ h.1 op rfl
    rw [Option.toList_some, List.map_singleton, hrequest, hname]
    exact List.Sublist.refl _

theorem gets_of_gives_takeName {base name : String} (h : Gives (takeName base) c name c') :
    c' = { c with names := c.names ++ [name] } ∧ Naming.Gets c.names base name := by
  obtain ⟨free, hfree, hgets⟩ := gives_takeName base c
  obtain rfl : free = name := Except.ok.inj (hfree.1.symm.trans h.1)
  exact ⟨h.2.symm.trans hfree.2, hgets⟩

/-- The texts of an operation can be read exactly if it asks for a name. -/
theorem nameRequest?_eq {path : String} {method : Method} {item entries : List (Scalar × Value)}
    (hentries : r.operation? item method = some entries) (pointer : String) :
    r.nameRequest? path item method =
      (operationTexts r.document.graph entries pointer).toOption.map fun texts => ⟨method, path, texts.1⟩ := by
  have htext (key : String) :
      (optionalText r.document.graph entries key pointer).toOption = Resolver.readText? key entries := by
    unfold optionalText Resolver.readText?
    rcases Resolver.keyword? key entries with _ | s | id
    · rfl
    · cases s <;> rfl
    · rfl
  rw [Resolver.nameRequest?, hentries, Option.bind_eq_bind, Option.bind_some, ← htext "operationId",
    ← htext "summary", operationTexts]
  cases optionalText r.document.graph entries "operationId" pointer with
  | error _ => rfl
  | ok operationId => cases optionalText r.document.graph entries "summary" pointer <;> rfl

/-- The operation of a method is named for its request, whether it is compiled or not. -/
theorem gave_compileOperation {path pointer : String} {method : Method} {ofPath : List RawParameter}
    {item entries : List (Scalar × Value)} {o : Option Operation} (hholder : r.Holder pointer entries)
    (hentries : r.operation? item method = some entries) (hofPath : ∀ p ∈ ofPath, r.ObjectAt p.pointer p.entries)
    (hc : c.builder.model.WellNamed) (h : Gives (compileOperation r path method ofPath entries pointer) c o c') :
    Gave (r.nameRequest? path item method).toList o.toList c c' := by
  unfold compileOperation at h
  obtain ⟨outcome, c₁, hattempt, h⟩ := Step.gives_bind.1 h
  rw [nameRequest?_eq hentries pointer]
  rcases Step.gives_attempt.1 hattempt with ⟨⟨operationId, summary⟩, rfl, hgives⟩ | ⟨e, rfl, herror, rfl⟩
  · obtain ⟨htexts, rfl⟩ := Step.gives_ofOutcome.1 hgives
    rw [htexts]
    obtain ⟨name, c₁, hname, h⟩ := Step.gives_bind.1 h
    obtain ⟨rfl, hgets⟩ := gets_of_gives_takeName hname
    have hisname : IsName name := hgets.isName (Naming.isName_operationName _ _ _).1
    refine Gave.of_name (r := r) (q := ⟨method, path, operationId⟩) hgets hc ?_ h
    refine Step.Keeps.imp ((naming r _).neverFails_compileNamed hisname hholder hofPath operationId summary) ?_
    rintro o ho op hop
    obtain ⟨rfl, rfl, rfl, rfl⟩ := ho op hop
    exact ⟨rfl, rfl⟩
  · -- an operation whose texts cannot be read is refused before it gets a name
    have htexts : operationTexts r.document.graph entries pointer = .error (.error e) := herror
    rw [htexts]
    obtain ⟨_, c₂, hrecord, h⟩ := Step.gives_bind.1 h
    obtain ⟨rfl, rfl⟩ := Step.gives_pure.1 h
    exact Gave.none (named_of_record hc hrecord)

theorem gave_compileMethods {path : String} {ofPath : List RawParameter} {item : List (Scalar × Value)}
    {methods : List Method} {operations : List Operation} (hitem : r.PathItem path item)
    (hofPath : ∀ p ∈ ofPath, r.ObjectAt p.pointer p.entries) (hc : c.builder.model.WellNamed)
    (h : Gives (compileMethods r path ofPath item methods) c operations c') :
    Gave (methods.filterMap (r.nameRequest? path item)) operations c c' := by
  induction methods generalizing c operations with
  | nil =>
    obtain ⟨rfl, rfl⟩ := Step.gives_pure.1 h
    exact Gave.none ⟨rfl, hc⟩
  | cons method rest ih =>
    rw [compileMethods] at h
    cases hentries : (valueAt? method.name item).bind r.document.graph.entries? with
    | none =>
      rw [hentries] at h
      have hnone : r.nameRequest? path item method = none := by
        rw [Resolver.nameRequest?, Resolver.operation?, hentries]
        rfl
      rw [List.filterMap_cons_none hnone]
      exact ih hc h
    | some entries =>
      rw [hentries] at h
      obtain ⟨compiled, c₁, hcompiled, h⟩ := Step.gives_bind.1 h
      obtain ⟨later, c₂, hlater, h⟩ := Step.gives_bind.1 h
      obtain ⟨rfl, rfl⟩ := Step.gives_pure.1 h
      have hfirst := gave_compileOperation (.operation hitem hentries) hentries hofPath hc hcompiled
      have hcons : (method :: rest).filterMap (r.nameRequest? path item) =
          (r.nameRequest? path item method).toList ++ rest.filterMap (r.nameRequest? path item) := by
        rw [List.filterMap_cons]
        cases r.nameRequest? path item method <;> rfl
      rw [hcons]
      exact hfirst.append (ih hfirst.types hlater)

theorem gave_compilePathItems {paths items : List (Scalar × Value)} {operations : List Operation}
    (hpaths : r.paths? = some paths) (hitems : items ⊆ paths) (hc : c.builder.model.WellNamed)
    (h : Gives (compilePathItems r items) c operations c') :
    Gave (items.flatMap r.entryRequests) operations c c' := by
  induction items generalizing c operations with
  | nil =>
    obtain ⟨rfl, rfl⟩ := Step.gives_pure.1 h
    exact Gave.none ⟨rfl, hc⟩
  | cons e rest ih =>
    obtain ⟨hmem, hrest⟩ := List.cons_subset.1 hitems
    obtain ⟨key, value⟩ := e
    cases key with
    | text path =>
      rw [compilePathItems] at h
      rw [List.flatMap_cons]
      cases hitem : r.document.graph.entries? value with
      | none =>
        rw [hitem] at h
        have hnone : r.entryRequests (.text path, value) = [] := by
          simp only [Resolver.entryRequests, hitem]
        rw [hnone]
        exact ih hrest hc h
      | some item =>
        rw [hitem] at h
        have hpath : r.PathItem path item := ⟨paths, value, hpaths, hmem, hitem⟩
        have hsome : r.entryRequests (.text path, value) = Method.all.filterMap (r.nameRequest? path item) := by
          simp only [Resolver.entryRequests, hitem]
        rw [hsome]
        obtain ⟨ofPath, c₁, hofPath, h⟩ := Step.gives_bind.1 h
        obtain ⟨first, c₂, hoperations, h⟩ := Step.gives_bind.1 h
        obtain ⟨later, c₃, hlater, h⟩ := Step.gives_bind.1 h
        obtain ⟨rfl, rfl⟩ := Step.gives_pure.1 h
        obtain ⟨hnamed, hobjects⟩ :=
          named_of_gives ((naming r c.names).neverFails_declaredParameters hpath.objectAt) hc hofPath
        have hfirst := gave_compileMethods hpath hobjects hnamed.types hoperations
        exact (Gave.none hnamed).append (hfirst.append (ih hrest hfirst.types hlater))
    | _ => cases h.1

/-- The names of the operations of a description are given for their requests, one after the other. -/
theorem gave_compilePaths {operations : List Operation} (hc : c.builder.model.WellNamed)
    (h : Gives (compilePaths r) c operations c') : Gave r.nameRequests operations c c' := by
  have hpaths : r.paths? = ((r.document.graph.entries? r.document.root).bind
      (valueAt? "paths")).bind r.document.graph.entries? := (Option.bind_assoc ..).symm
  unfold compilePaths at h
  unfold Resolver.nameRequests
  dsimp only at h
  rw [hpaths]
  cases hvalue : (r.document.graph.entries? r.document.root).bind (valueAt? "paths") with
  | none =>
    rw [hvalue] at h
    obtain ⟨rfl, rfl⟩ := Step.gives_pure.1 h
    exact Gave.none ⟨rfl, hc⟩
  | some value =>
    rw [hvalue] at h
    rw [Option.bind_some]
    cases htruthy : r.document.graph.isTruthy value with
    | false =>
      rw [Option.filter_some_neg (by simp [htruthy])] at h
      rw [entries?_of_not_isTruthy htruthy]
      obtain ⟨rfl, rfl⟩ := Step.gives_pure.1 h
      exact Gave.none ⟨rfl, hc⟩
    | true =>
      rw [Option.filter_some_pos htruthy] at h
      dsimp only at h
      cases hentries : r.document.graph.entries? value with
      | none =>
        rw [hentries] at h
        obtain ⟨_, c₁, hrecord, h⟩ := Step.gives_bind.1 h
        obtain ⟨rfl, rfl⟩ := Step.gives_pure.1 h
        exact Gave.none (named_of_record hc hrecord)
      | some paths =>
        rw [hentries] at h
        have hsome : r.paths? = some paths := by
          rw [hpaths, hvalue, Option.bind_some, hentries]
        exact gave_compilePathItems hsome (List.Subset.refl paths) hc h

/-- All types have names for generated code, and the names of the operations are given from none on. -/
theorem gave_compileAll {typeErrors : List CompileError} {operations : List Operation}
    (h : Gives (compileAll r) initial (typeErrors, operations) c) : Gave r.nameRequests operations initial c := by
  obtain ⟨errors, c₁, hcomponents, h⟩ := Step.gives_bind.1 h
  obtain ⟨later, c₂, hpaths, h⟩ := Step.gives_bind.1 h
  obtain ⟨heq, rfl⟩ := Step.gives_pure.1 h
  cases heq
  obtain ⟨nodes, t, -, -, rfl⟩ := gives_compileComponents hcomponents
  have htypes := TypeBuilder.wellNamed_buildComponents (b := .empty) (List.forall_mem_nil _) nodes
  obtain ⟨hgiven, hwell⟩ := gave_compilePaths (c := { initial with
    resolved := t, builder := (TypeBuilder.buildComponents nodes .empty).2 }) htypes hpaths
  exact ⟨hgiven, hwell⟩

end Compilation

/-! ## The names of a description -/

/-- The operations of a description have names that differ, also those of one that is refused. Each request for a name
gets the name of its operation or, if an earlier one has got that, this with the least counter from two on that makes
it free, and every operation that is compiled has the name of its request. The search for a free name ends wherever
it is begun. -/
theorem collect_givesNames {d : Document} {r : Resolver} {c : Collected} (hr : Resolver.ofDocument d = .ok r)
    (hc : collect d = .ok c) :
    (∀ base s, ∃ name, Gives (Compilation.takeName base) s name { s with names := s.names ++ [name] } ∧
      Naming.Gets s.names base name) ∧
    ∃ names, GetsAll [] (r.nameRequests.map (·.base)) names ∧
      (c.operations.map fun op => (op.request, op.name)).Sublist (r.nameRequests.zip names) ∧
      (c.operations.map (·.name)).Nodup := by
  obtain ⟨typeErrors, operations, s, hrun, rfl⟩ := exists_run_of_collect hr hc
  obtain ⟨⟨names, hgiven, -, hsub⟩, -⟩ :=
    Compilation.gave_compileAll ⟨congrArg Prod.fst hrun, congrArg Prod.snd hrun⟩
  refine ⟨Compilation.gives_takeName, names, hgiven, hsub, ?_⟩
  -- the names of the operations are among those that are given
  have hnames : (operations.map (·.name)).Sublist names := by
    have hsnd := hsub.map Prod.snd
    rw [List.map_map, List.map_snd_zip (by rw [← hgiven.length_eq, List.length_map])] at hsnd
    exact hsnd
  exact hnames.nodup (hgiven.nodup List.nodup_nil)

/-- A description in which several operations ask for one name, and one for a name that ends in a counter. One of them
has a parameter without a schema and is refused, another has an identifier that is no text. -/
def namesakesDocument : Document where
  graph := ⟨#[
    .mapping [(.text "components", .container 1), (.text "paths", .container 4)],
    .mapping [(.text "schemas", .container 2)],
    .mapping [(.text "None", .container 3)],
    .mapping [(.text "type", .scalar (.text "object"))],
    .mapping [(.text "/a", .container 5), (.text "/b", .container 7), (.text "/c", .container 9),
      (.text "/d", .container 11), (.text "/e", .container 13)],
    .mapping [(.text "get", .container 6)],
    .mapping [(.text "operationId", .scalar (.text "list pets"))],
    .mapping [(.text "get", .container 8)],
    .mapping [(.text "operationId", .scalar (.text "listPets")), (.text "parameters", .container 15)],
    .mapping [(.text "get", .container 10), (.text "post", .container 16)],
    .mapping [(.text "operationId", .scalar (.text "ListPets"))],
    .mapping [(.text "get", .container 12)],
    .mapping [(.text "operationId", .scalar (.text "listPets2"))],
    .mapping [(.text "get", .container 14)],
    .mapping [(.text "operationId", .scalar (.text "none"))],
    .list [.container 17],
    .mapping [(.text "operationId", .scalar (.int 5))],
    .mapping [(.text "name", .scalar (.text "limit")), (.text "in", .scalar (.text "query"))]]⟩
  root := .container 0

theorem collect_givesNames_namesakesDocument : ∃ r c, Resolver.ofDocument namesakesDocument = .ok r ∧
    collect namesakesDocument = .ok c ∧
    (r.nameRequests.map fun q => (q.path, q.base)) =
      [("/a", "ListPets"), ("/b", "ListPets"), ("/c", "ListPets"), ("/d", "ListPets2"), ("/e", "None")] ∧
    (c.operations.map fun op => (op.path, op.name)) =
      [("/a", "ListPets"), ("/c", "ListPets3"), ("/d", "ListPets22"), ("/e", "None")] ∧
    ∃ names, GetsAll [] (r.nameRequests.map (·.base)) names ∧
      (c.operations.map fun op => (op.request, op.name)).Sublist (r.nameRequests.zip names) ∧
      (c.operations.map (·.name)).Nodup := by
  have hbases : ((Resolver.ofDocument namesakesDocument).toOption.map fun r =>
      r.nameRequests.map fun q => (q.path, q.base)) =
      some [("/a", "ListPets"), ("/b", "ListPets"), ("/c", "ListPets"), ("/d", "ListPets2"), ("/e", "None")] := by
    decide +kernel
  have hnames : ((collect namesakesDocument).toOption.map fun c => c.operations.map fun op => (op.path, op.name)) =
      some [("/a", "ListPets"), ("/c", "ListPets3"), ("/d", "ListPets22"), ("/e", "None")] := by
    decide +kernel
  obtain ⟨r, hr, hbases⟩ := Option.map_eq_some_iff.1 hbases
  obtain ⟨c, hc, hnames⟩ := Option.map_eq_some_iff.1 hnames
  have hr := toOption_eq_some.1 hr
  have hc := toOption_eq_some.1 hc
  exact ⟨r, c, hr, hc, hbases, hnames, (collect_givesNames hr hc).2⟩

/-- Names are identifiers, whatever texts they are made from, and a type name is its own type name. One is a keyword
exactly where its text spells `False`, `None` or `True` and is not kept, for no guard is made against these. So the
types, the branches of unions and the operations of a description have identifiers as names, of which only these three
may be keywords. -/
theorem names_identifiers (s method path : String) (id : Option String) :
    (Text.isIdentifier (Naming.pascalCase s) ∧
      (Text.isKeyword (Naming.pascalCase s) ↔ Naming.SpellsConstant s)) ∧
    (Text.isIdentifier (Naming.typeName s) ∧ Naming.typeName (Naming.typeName s) = Naming.typeName s ∧
      (Text.isKeyword (Naming.typeName s) ↔
        Naming.SpellsConstant s ∧ ¬ (Text.isIdentifier s ∧ Text.isKeyword s = false))) ∧
    (Text.isIdentifier (Naming.operationName method path id) ∧
      (Text.isKeyword (Naming.operationName method path id) ↔ ∃ text ∈ id, Naming.SpellsConstant text)) ∧
    ∀ d c, collect d = .ok c → ∀ name ∈ c.types.givenNames ++ c.operations.map (·.name), IsName name := by
  have hpascal := Naming.isName_pascalCase s
  have htype := Naming.isName_typeName s
  have hoperation := Naming.isName_operationName method path id
  refine ⟨⟨hpascal.1.identifier, hpascal.2⟩,
    ⟨htype.1.identifier, Naming.typeName_of_isName htype.1, htype.2⟩,
    ⟨hoperation.1.identifier, hoperation.2⟩, fun d c hc => ?_⟩
  cases hr : Resolver.ofDocument d with
  | error halt =>
    -- nothing is named if the component schemas are no mapping
    rcases halt with e | b <;> simp only [collect, hr] at hc
    · cases hc
      exact List.forall_mem_nil _
    · cases hc
  | ok r =>
    obtain ⟨typeErrors, operations, s, hrun, rfl⟩ := exists_run_of_collect hr hc
    have hgave := Compilation.gave_compileAll ⟨congrArg Prod.fst hrun, congrArg Prod.snd hrun⟩
    exact List.forall_mem_append.2 ⟨hgave.types, hgave.isName⟩

theorem names_identifiers_namesakesDocument : ∃ c, collect namesakesDocument = .ok c ∧
    c.types.givenNames ++ c.operations.map (·.name) = ["None", "ListPets", "ListPets3", "ListPets22", "None"] ∧
    (Text.isKeyword (Naming.typeName "None") ↔
      Naming.SpellsConstant "None" ∧ ¬ (Text.isIdentifier "None" ∧ Text.isKeyword "None" = false)) ∧
    ∀ name ∈ c.types.givenNames ++ c.operations.map (·.name), IsName name := by
  have hnames : ((collect namesakesDocument).toOption.map fun c =>
      c.types.givenNames ++ c.operations.map (·.name)) =
      some ["None", "ListPets", "ListPets3", "ListPets22", "None"] := by
    decide +kernel
  obtain ⟨c, hc, hnames⟩ := Option.map_eq_some_iff.1 hnames
  have hc := toOption_eq_some.1 hc
  obtain ⟨-, ⟨-, -, htype⟩, -, hall⟩ := names_identifiers "None" "get" "/e" (some "none")
  exact ⟨c, hc, hnames, htype, hall namesakesDocument c hc⟩

end RouteBinding
