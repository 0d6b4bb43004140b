import Polycalc.Proofs.Evaluation.Places
import Mathlib.Logic.Relator

/-!
# Evaluations in lockstep

Which calls are refused depends on the sites of the live calls alone, so it is
the same in two programs that differ in places if their sites correspond one to
one.  Expressions are twins if they differ in places only and their calls have
corresponding sites; evaluated in programs of twins, with the same limits, they
end alike (`Program.Runs.twin`), whether with a value, an error, a fault or at a
limit.
-/

namespace Polycalc

/-- The sites of the calls in an expression. -/
def Expr.sites (expr : Expr) : List Site :=
  expr.calls.map Call.site

variable {pairs : Site → Site → Prop}

/-! ## Twins -/

/-- The expressions differ in places only, and their calls have corresponding
sites. -/
structure Expr.Twin (pairs : Site → Site → Prop) (expr other : Expr) : Prop where
  same : other.bare = expr.bare
  sites : List.Forall₂ pairs expr.sites other.sites

/-- The calls have corresponding sites, and so have those in their arguments. -/
structure Call.Twin (pairs : Site → Site → Prop) (call other : Call) : Prop where
  same : other.bare = call.bare
  site : pairs call.site other.site
  arguments : List.Forall₂ (Expr.Twin pairs) call.arguments other.arguments

/-- Lists with parts of the same lengths correspond part by part. -/
theorem forall₂_of_append {α β : Type} {rel : α → β → Prop} {first rest : List α}
    {first' rest' : List β} (lengths : first'.length = first.length)
    (each : List.Forall₂ rel (first ++ rest) (first' ++ rest')) :
    List.Forall₂ rel first first' ∧ List.Forall₂ rel rest rest' := by
  constructor
  · have taken := List.forall₂_take_append _ first' rest' each
    rwa [lengths, List.take_left] at taken
  · have dropped := List.forall₂_drop_append _ first' rest' each
    rwa [lengths, List.drop_left] at dropped

theorem Expr.length_sites_of_bare_eq {expr other : Expr} (same : other.bare = expr.bare) :
    other.sites.length = expr.sites.length := by
  have calls := congrArg (fun expr => expr.calls.length) same
  simpa only [calls_bare, List.length_map, sites] using calls

/-- Expressions that differ in places only are twins if their sites correspond in
their order. -/
theorem forall₂_twin {exprs others : List Expr} (same : others.map Expr.bare = exprs.map Expr.bare)
    (sites : List.Forall₂ pairs (exprs.flatMap Expr.sites) (others.flatMap Expr.sites)) :
    List.Forall₂ (Expr.Twin pairs) exprs others := by
  induction exprs generalizing others with
  | nil =>
      rw [List.map_nil, List.map_eq_nil_iff] at same
      rw [same]
      exact .nil
  | cons expr rest ih =>
      rw [List.map_cons, List.map_eq_cons_iff] at same
      rcases same with ⟨other, rest', rfl, sameFirst, sameRest⟩
      rw [List.flatMap_cons, List.flatMap_cons] at sites
      rcases forall₂_of_append (Expr.length_sites_of_bare_eq sameFirst) sites with
        ⟨firstSites, restSites⟩
      exact .cons ⟨sameFirst, firstSites⟩ (ih sameRest restSites)

theorem flatMap_sites (exprs : List Expr) :
    exprs.flatMap Expr.sites = (exprs.flatMap Expr.calls).map Call.site := by
  rw [List.map_flatMap]
  rfl

namespace Expr.Twin

variable {other : Expr}

theorem of_call {site : Site} {name : String} {arguments : List Expr} {position : Position}
    (twin : (Expr.call site name arguments position).Twin pairs other) :
    ∃ call' : Call, other = call'.toExpr ∧
      Call.Twin pairs ⟨site, name, arguments, position⟩ call' := by
  rcases twin with ⟨same, sites⟩
  rcases of_bare_eq_call same with ⟨site', arguments', place, rfl, sameCall⟩
  have sameArguments : arguments'.map bare = arguments.map bare := (Call.mk.inj sameCall).2.2.1
  rw [Expr.sites, Expr.sites, calls_call, calls_call, List.map_append, List.map_append,
    ← flatMap_sites, ← flatMap_sites] at sites
  have lengths : (arguments'.flatMap Expr.sites).length =
      (arguments.flatMap Expr.sites).length := by
    have total := sites.length_eq
    simp only [List.length_append, List.map_singleton, List.length_singleton] at total
    omega
  rcases forall₂_of_append lengths sites with ⟨inside, own⟩
  have calls : Call.Twin pairs ⟨site, name, arguments, position⟩
      ⟨site', name, arguments', place⟩ := by
    constructor
    · exact sameCall
    · exact (List.forall₂_cons.mp own).1
    · exact forall₂_twin sameArguments inside
  exact ⟨_, rfl, calls⟩

theorem of_binary {operator : Operator} {left right : Expr} {position : Position}
    (twin : (Expr.binary operator left right position).Twin pairs other) :
    ∃ left' right' place, other = binary operator left' right' place ∧
      List.Forall₂ (Expr.Twin pairs) (Expr.binary operator left right position).operands
        (Expr.binary operator left' right' place).operands := by
  rcases twin with ⟨same, sites⟩
  rcases of_bare_eq_binary same with ⟨left', right', place, rfl, sameOperands⟩
  rw [Expr.sites, Expr.sites, ← calls_operands, ← calls_operands, ← flatMap_sites,
    ← flatMap_sites] at sites
  exact ⟨left', right', place, rfl, forall₂_twin sameOperands sites⟩

end Expr.Twin

namespace Call.Twin

variable {call other : Call} {limits : Limits}

theorem name (twin : call.Twin pairs other) : other.name = call.name :=
  (Call.mk.inj twin.same).2.1

theorem render (twin : call.Twin pairs other) : other.render limits = call.render limits := by
  have same : other.toExpr.bare = call.toExpr.bare := by
    rw [Call.toExpr, Call.toExpr, Expr.bare_call, Expr.bare_call]
    exact congrArg Call.toExpr twin.same
  rw [Call.render, Call.render, ← Expr.render_bare, same, Expr.render_bare]

theorem entryText (twin : call.Twin pairs other) (values : List Int) :
    other.entryText limits values = call.entryText limits values := by
  cases values with
  | nil => exact twin.render
  | cons value rest => simp only [Call.entryText, twin.name]

theorem exitText (twin : call.Twin pairs other) (value : Int) :
    other.exitText limits value = call.exitText limits value := by
  rw [Call.exitText, Call.exitText, twin.name]

end Call.Twin

/-! ## Live calls -/

/-- Twins are put on corresponding live calls. -/
theorem Call.Twin.forall₂_liveSites {call other : Call} (twin : call.Twin pairs other)
    {live live' : List Expr} (lives : List.Forall₂ pairs (liveSites live) (liveSites live')) :
    List.Forall₂ pairs (liveSites (call.toExpr :: live)) (liveSites (other.toExpr :: live')) := by
  rw [liveSites_cons, liveSites_cons]
  exact .cons twin.site lives

/-- If things correspond one to one, so does membership in corresponding lists. -/
theorem mem_iff_of_biUnique {α β : Type} {rel : α → β → Prop} (unique : Relator.BiUnique rel)
    {value : α} {other : β} (paired : rel value other) {values : List α} {others : List β}
    (each : List.Forall₂ rel values others) : value ∈ values ↔ other ∈ others := by
  induction each with
  | nil => simp
  | cons first _ ih =>
      have same : value = _ ↔ other = _ := Relator.rel_eq unique paired first
      rw [List.mem_cons, List.mem_cons, same, ih]

/-- Twins are live together. -/
theorem Call.Twin.isLive {call other : Call} (twin : call.Twin pairs other)
    (unique : Relator.BiUnique pairs) {live live' : List Expr}
    (lives : List.Forall₂ pairs (liveSites live) (liveSites live')) :
    other.isLive live' = call.isLive live := by
  rw [Bool.eq_iff_iff, isLive_iff, isLive_iff]
  exact (mem_iff_of_biUnique unique twin.site lives).symm

/-! ## Programs -/

/-- The definitions differ in places only, and the calls in their bodies have
corresponding sites. -/
structure Definition.Twin (pairs : Site → Site → Prop) (definition other : Definition) :
    Prop where
  same : other.bare = definition.bare
  body : definition.body.Twin pairs other.body

/-- The tables hold twins, and sites correspond one to one. -/
structure Program.Twin (pairs : Site → Site → Prop) (program other : Program) : Prop where
  unique : Relator.BiUnique pairs
  entries : List.Forall₂ (Definition.Twin pairs) program.functions.entries
    other.functions.entries

theorem Definition.Twin.name {definition other : Definition}
    (twin : definition.Twin pairs other) : other.name = definition.name :=
  (Definition.bare_eq_iff.mp twin.same).1

theorem Definition.Twin.parameters {definition other : Definition}
    (twin : definition.Twin pairs other) : other.parameters = definition.parameters :=
  (Definition.bare_eq_iff.mp twin.same).2.1

theorem Definition.Twin.arity {definition other : Definition}
    (twin : definition.Twin pairs other) : other.arity = definition.arity := by
  rw [Definition.arity, twin.parameters, Definition.arity]

namespace Program.Twin

variable {program other : Program}

/-- A name means twins in programs of twins, or it means nothing in both. -/
theorem find? (twin : program.Twin pairs other) (name : String) :
    Option.Rel (Definition.Twin pairs) (program.find? name) (other.find? name) := by
  have each : ∀ {definitions others : List Definition},
      List.Forall₂ (Definition.Twin pairs) definitions others →
        Option.Rel (Definition.Twin pairs) (definitions.find? (·.name = name))
          (others.find? (·.name = name)) := by
    intro definitions others entries
    induction entries with
    | nil => exact .none
    | cons first _ ih =>
        rw [List.find?_cons, List.find?_cons, first.name]
        split
        · exact .some first
        · exact ih
  exact each twin.entries

theorem exists_definition (twin : program.Twin pairs other) {name : String}
    {definition : Definition} (found : program.find? name = some definition) :
    ∃ definition', other.find? name = some definition' ∧ definition.Twin pairs definition' := by
  have same := twin.find? name
  rw [found] at same
  cases found' : other.find? name with
  | none =>
      rw [found'] at same
      cases same
  | some definition' =>
      rw [found'] at same
      cases same with
      | some twin => exact ⟨definition', rfl, twin⟩

theorem eq_none (twin : program.Twin pairs other) {name : String}
    (unknown : program.find? name = none) : other.find? name = none := by
  have same := twin.find? name
  rw [unknown] at same
  cases found' : other.find? name with
  | none => rfl
  | some definition' =>
      rw [found'] at same
      cases same

end Program.Twin

/-- Twins call twins. -/
theorem Call.Twin.exists_callee {call call' : Call} (twin : call.Twin pairs call')
    {program other : Program} (programs : program.Twin pairs other) {callee : Definition}
    (found : program.find? call.name = some callee) :
    ∃ callee', other.find? call'.name = some callee' ∧ callee.Twin pairs callee' := by
  rw [twin.name]
  exact programs.exists_definition found

theorem Call.Twin.unknown {call call' : Call} (twin : call.Twin pairs call')
    {program other : Program} (programs : program.Twin pairs other)
    (unknown : program.find? call.name = none) : other.find? call'.name = none := by
  rw [twin.name]
  exact programs.eq_none unknown

/-- Two things stand at the same place of two lists. -/
def SamePlace {α β : Type} (values : List α) (others : List β) (value : α) (other : β) : Prop :=
  ∃ index : Nat, values[index]? = some value ∧ others[index]? = some other

theorem SamePlace.biUnique {α β : Type} {values : List α} {others : List β}
    (nodup : values.Nodup) (otherNodup : others.Nodup) :
    Relator.BiUnique (SamePlace values others) := by
  constructor
  · rintro value value' other ⟨index, here, there⟩ ⟨index', here', there'⟩
    have bound : index < others.length := (List.getElem?_eq_some_iff.mp there).1
    have same := (List.getElem?_inj bound otherNodup).mp (there.trans there'.symm)
    subst same
    exact Option.some.inj (here.symm.trans here')
  · rintro value other other' ⟨index, here, there⟩ ⟨index', here', there'⟩
    have bound : index < values.length := (List.getElem?_eq_some_iff.mp here).1
    have same := (List.getElem?_inj bound nodup).mp (here.trans here'.symm)
    subst same
    exact Option.some.inj (there.symm.trans there')

theorem forall₂_samePlace {α β : Type} {values : List α} {others : List β}
    (lengths : values.length = others.length) :
    List.Forall₂ (SamePlace values others) values others := by
  rw [List.forall₂_iff_get]
  constructor
  · exact lengths
  · intro index bound bound'
    exact ⟨index, List.getElem?_eq_getElem bound, List.getElem?_eq_getElem bound'⟩

/-- Definitions that differ in places only are twins if their bodies are. -/
theorem forall₂_definitionTwin {definitions others : List Definition}
    (same : others.map Definition.bare = definitions.map Definition.bare)
    (bodies : List.Forall₂ (Expr.Twin pairs) (definitions.map Definition.body)
      (others.map Definition.body)) :
    List.Forall₂ (Definition.Twin pairs) definitions others := by
  induction definitions generalizing others with
  | nil =>
      rw [List.map_nil, List.map_eq_nil_iff] at same
      rw [same]
      exact .nil
  | cons definition rest ih =>
      rw [List.map_cons, List.map_eq_cons_iff] at same
      rcases same with ⟨other, rest', rfl, sameFirst, sameRest⟩
      rw [List.map_cons, List.map_cons, List.forall₂_cons] at bodies
      exact .cons ⟨sameFirst, bodies.1⟩ (ih sameRest bodies.2)

/-- Alike programs are programs of twins if each of their calls has a site of its
own. -/
theorem Program.Alike.exists_twin {program other : Program} (alike : program.Alike other)
    (nodup : (program.bodyCalls.map Call.site).Nodup)
    (otherNodup : (other.bodyCalls.map Call.site).Nodup) :
    ∃ pairs, program.Twin pairs other := by
  have lengths := congrArg List.length alike.bodyCalls
  rw [List.length_map, List.length_map] at lengths
  have sites : List.Forall₂
      (SamePlace (program.bodyCalls.map Call.site) (other.bodyCalls.map Call.site))
      (program.bodies.flatMap Expr.sites) (other.bodies.flatMap Expr.sites) := by
    rw [flatMap_sites, flatMap_sites]
    apply forall₂_samePlace
    rw [List.length_map, List.length_map]
    exact lengths.symm
  have sameBodies : other.bodies.map Expr.bare = program.bodies.map Expr.bare := by
    have each := congrArg (List.map Definition.body) alike
    rw [List.map_map, List.map_map] at each
    rw [bodies, bodies, List.map_map, List.map_map]
    exact each
  have twins := forall₂_definitionTwin alike (forall₂_twin sameBodies sites)
  exact ⟨_, SamePlace.biUnique nodup otherNodup, twins⟩

/-! ## Results -/

/-- An error of evaluation without its places. -/
def EvalError.bare : EvalError → EvalError
  | unboundParameter name _ => unboundParameter name .unplaced
  | unknownFunction call text => unknownFunction call.bare text
  | wrongArgumentCount name expected found => wrongArgumentCount name expected found
  | tooManyLiveCalls => tooManyLiveCalls
  | diverges call text => diverges call.bare text

/-- A failure of an evaluation without its places. -/
def Failure.bare : Failure → Failure
  | evaluation error => evaluation error.bare
  | failure => failure

/-- The results are the same value or failures that differ in places only. -/
inductive EndsAlike {α : Type} : Except Failure α → Except Failure α → Prop
  | ok (value : α) : EndsAlike (.ok value) (.ok value)
  | error {failure other : Failure} (same : other.bare = failure.bare) :
      EndsAlike (.error failure) (.error other)

theorem EndsAlike.quoting {text : Except Fault String} {error error' : String → EvalError}
    (same : ∀ written, (error' written).bare = (error written).bare) :
    EndsAlike (α := Int) (.error (.quoting text error)) (.error (.quoting text error')) := by
  apply EndsAlike.error
  cases text with
  | error fault => rfl
  | ok written => exact congrArg Failure.evaluation (same written)

namespace Program

variable {limits : Limits} {program other : Program}

/-- Twins end alike in programs of twins. -/
theorem Runs.twin (programs : program.Twin pairs other) {budget : Nat} {live live' : List Expr}
    {binding : Binding} {expr expr' : Expr} {result : Except Failure Int} {steps : List Step}
    (runs : Runs limits program budget live binding expr result steps)
    (lives : List.Forall₂ pairs (liveSites live) (liveSites live'))
    (twin : expr.Twin pairs expr') :
    ∃ result' steps', Runs limits other budget live' binding expr' result' steps' ∧
      EndsAlike result result' := by
  induction runs using @Runs.rec limits program _
    (fun budget live binding exprs result _ _ => ∀ live' exprs',
      List.Forall₂ pairs (liveSites live) (liveSites live') →
      List.Forall₂ (Expr.Twin pairs) exprs exprs' →
        ∃ result' steps', RunsAll limits other budget live' binding exprs' result' steps' ∧
          EndsAlike result result')
    (fun budget live binding call result _ _ => ∀ live' call',
      List.Forall₂ pairs (liveSites live) (liveSites live') →
      call.Twin pairs call' →
        ∃ result' steps', RunsCall limits other budget live' binding call' result' steps' ∧
          EndsAlike result result')
    generalizing expr' live' with
  | number =>
      rcases Expr.of_bare_eq_number twin.same with ⟨place, rfl⟩
      exact ⟨_, _, .number, .ok _⟩
  | parameter bound =>
      rcases Expr.of_bare_eq_parameter twin.same with ⟨place, rfl⟩
      exact ⟨_, _, .parameter bound, .ok _⟩
  | unbound free =>
      rcases Expr.of_bare_eq_parameter twin.same with ⟨place, rfl⟩
      exact ⟨_, _, .unbound free, .error rfl⟩
  | call _ ih =>
      rcases twin.of_call with ⟨call', rfl, calls⟩
      rcases ih _ _ lives calls with ⟨result', steps', called, alike⟩
      exact ⟨result', steps', .call called, alike⟩
  | chain _ ih =>
      rcases twin.of_binary with ⟨left', right', place, rfl, operands⟩
      rcases ih _ _ lives operands with ⟨result', steps', ran, alike⟩
      cases alike
      exact ⟨_, _, .chain ran, .ok _⟩
  | operandFails _ ih =>
      rcases twin.of_binary with ⟨left', right', place, rfl, operands⟩
      rcases ih _ _ lives operands with ⟨result', steps', ran, alike⟩
      cases alike with
      | error same => exact ⟨_, _, .operandFails ran, .error same⟩
  | foreign =>
      cases Expr.of_bare_eq_foreign twin.same
      exact ⟨_, _, .foreign, .error rfl⟩
  | nil live' exprs' lives twins =>
      cases twins
      exact ⟨_, _, .nil, .ok _⟩
  | cons _ _ firstIh othersIh live' exprs' lives twins =>
      cases twins with
      | cons twin twins =>
          rcases firstIh lives twin with ⟨_, _, first, alike⟩
          rcases othersIh _ _ lives twins with ⟨_, _, others, alike'⟩
          cases alike
          cases alike'
          exact ⟨_, _, .cons first others, .ok _⟩
  | firstFails _ ih live' exprs' lives twins =>
      cases twins with
      | cons twin twins =>
          rcases ih lives twin with ⟨_, _, first, alike⟩
          cases alike with
          | error same => exact ⟨_, _, .firstFails first, .error same⟩
  | laterFails _ _ firstIh othersIh live' exprs' lives twins =>
      cases twins with
      | cons twin twins =>
          rcases firstIh lives twin with ⟨_, _, first, alike⟩
          rcases othersIh _ _ lives twins with ⟨_, _, others, alike'⟩
          cases alike
          cases alike' with
          | error same => exact ⟨_, _, .laterFails first others, .error same⟩
  | reentered isLive live' call' lives twin =>
      rw [← twin.isLive programs.unique lives] at isLive
      have sameCall := twin.same
      rw [← twin.render]
      exact ⟨_, _, .reentered isLive, .quoting fun written => by
        rw [EvalError.bare, EvalError.bare, sameCall]⟩
  | exhausted notLive live' call' lives twin =>
      rw [← twin.isLive programs.unique lives] at notLive
      exact ⟨_, _, .exhausted notLive, .error rfl⟩
  | argumentFails notLive _ ih live' call' lives twin =>
      rw [← twin.isLive programs.unique lives] at notLive
      rcases ih _ _ (twin.forall₂_liveSites lives) twin.arguments with ⟨_, _, given, alike⟩
      cases alike with
      | error same => exact ⟨_, _, .argumentFails notLive given, .error same⟩
  | unknownFunction notLive _ unknown ih live' call' lives twin =>
      rw [← twin.isLive programs.unique lives] at notLive
      rcases ih _ _ (twin.forall₂_liveSites lives) twin.arguments with ⟨_, _, given, alike⟩
      have unknown' := twin.unknown programs unknown
      have sameCall := twin.same
      cases alike
      rw [← twin.render]
      exact ⟨_, _, .unknownFunction notLive given unknown', .quoting fun written => by
        rw [EvalError.bare, EvalError.bare, sameCall]⟩
  | entryFault notLive _ found unwritten ih live' call' lives twin =>
      rw [← twin.isLive programs.unique lives] at notLive
      rcases ih _ _ (twin.forall₂_liveSites lives) twin.arguments with ⟨_, _, given, alike⟩
      rcases twin.exists_callee programs found with ⟨callee', found', callees⟩
      rw [← twin.entryText] at unwritten
      cases alike
      exact ⟨_, _, .entryFault notLive given found' unwritten, .error rfl⟩
  | wrongArgumentCount notLive _ found written mismatch ih live' call' lives twin =>
      rw [← twin.isLive programs.unique lives] at notLive
      rcases ih _ _ (twin.forall₂_liveSites lives) twin.arguments with ⟨_, _, given, alike⟩
      rcases twin.exists_callee programs found with ⟨callee', found', callees⟩
      rw [← twin.entryText] at written
      rw [← callees.arity] at mismatch ⊢
      rw [← callees.name]
      cases alike
      exact ⟨_, _, .wrongArgumentCount notLive given found' written mismatch, .error rfl⟩
  | bodyFails notLive _ found written fits _ ih bodyIh live' call' lives twin =>
      rw [← twin.isLive programs.unique lives] at notLive
      rcases ih _ _ (twin.forall₂_liveSites lives) twin.arguments with ⟨_, _, given, alike⟩
      rcases twin.exists_callee programs found with ⟨callee', found', callees⟩
      rcases bodyIh (twin.forall₂_liveSites lives) callees.body with ⟨_, _, body, bodyAlike⟩
      rw [← twin.entryText] at written
      rw [← callees.arity] at fits
      rw [← callees.parameters] at body
      cases alike
      cases bodyAlike with
      | error same => exact ⟨_, _, .bodyFails notLive given found' written fits body, .error same⟩
  | exitFault notLive _ found written fits _ unwritten ih bodyIh live' call' lives twin =>
      rw [← twin.isLive programs.unique lives] at notLive
      rcases ih _ _ (twin.forall₂_liveSites lives) twin.arguments with ⟨_, _, given, alike⟩
      rcases twin.exists_callee programs found with ⟨callee', found', callees⟩
      rcases bodyIh (twin.forall₂_liveSites lives) callees.body with ⟨_, _, body, bodyAlike⟩
      rw [← twin.entryText] at written
      rw [← twin.exitText] at unwritten
      rw [← callees.arity] at fits
      rw [← callees.parameters] at body
      cases alike
      cases bodyAlike
      exact ⟨_, _, .exitFault notLive given found' written fits body unwritten, .error rfl⟩
  | returns notLive _ found written fits _ leaving ih bodyIh live' call' lives twin =>
      rw [← twin.isLive programs.unique lives] at notLive
      rcases ih _ _ (twin.forall₂_liveSites lives) twin.arguments with ⟨_, _, given, alike⟩
      rcases twin.exists_callee programs found with ⟨callee', found', callees⟩
      rcases bodyIh (twin.forall₂_liveSites lives) callees.body with ⟨_, _, body, bodyAlike⟩
      rw [← twin.entryText] at written
      rw [← twin.exitText] at leaving
      rw [← callees.arity] at fits
      rw [← callees.parameters] at body
      cases alike
      cases bodyAlike
      exact ⟨_, _, .returns notLive given found' written fits body leaving, .ok _⟩

end Program

end Polycalc
