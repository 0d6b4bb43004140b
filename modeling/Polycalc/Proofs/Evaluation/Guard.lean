import Polycalc.Proofs.Evaluation.Derivation
import Polycalc.Proofs.Expr.Rendering
import Mathlib.Data.List.Dedup
import Mathlib.Data.List.Perm.Subperm

/-!
# The guard against recursion

A run that settles, without the guard, a limit or a fault, has a derivation
with the same result (`Runs.evaluates`).  The three other ways to end are
treated apart:

* the budget of live calls is not used up if it covers the sites of all calls
  there are, because no site is live twice (`Runs.ne_tooManyLiveCalls`);
* there is no fault if numerals may have any length and nothing foreign is
  evaluated (`Runs.ne_fault`);
* a call that is refused demands itself, and the expression leads to it
  (`Runs.leadToCycle`).

For the first and the last a site has to tell which call it is.  `known` is a
list of calls that has all those of the expression and of the program's bodies.
-/

namespace Polycalc

namespace Program

/-- The bodies of the functions. -/
def bodies (program : Program) : List Expr :=
  program.functions.entries.map Definition.body

/-- The calls in the bodies of the functions. -/
def bodyCalls (program : Program) : List Call :=
  program.bodies.flatMap Expr.calls

theorem body_mem_bodies {program : Program} {name : String} {callee : Definition}
    (found : program.find? name = some callee) : callee.body ∈ program.bodies :=
  List.mem_map_of_mem (List.mem_of_find?_eq_some found)

theorem calls_body_subset {program : Program} {name : String} {callee : Definition}
    (found : program.find? name = some callee) :
    callee.body.calls ⊆ program.bodyCalls := by
  intro call inBody
  exact List.mem_flatMap.mpr ⟨callee.body, body_mem_bodies found, inBody⟩

end Program

/-- Of these calls, two with the same site are the same. -/
def IdentifiedBySite (calls : List Call) : Prop :=
  ∀ first ∈ calls, ∀ second ∈ calls, first.site = second.site → first = second

/-- The sites of the live calls. -/
def liveSites (live : List Expr) : List Site :=
  live.filterMap Expr.site?

theorem isLive_iff {call : Call} {live : List Expr} :
    call.isLive live = true ↔ call.site ∈ liveSites live := by
  simp [Call.isLive, liveSites, List.mem_filterMap]

theorem isLive_eq_false_iff {call : Call} {live : List Expr} :
    call.isLive live = false ↔ call.site ∉ liveSites live := by
  rw [← isLive_iff, Bool.not_eq_true]

@[simp]
theorem liveSites_cons (call : Call) (live : List Expr) :
    liveSites (call.toExpr :: live) = call.site :: liveSites live :=
  rfl

/-- Limits that no evaluation with these calls reaches. -/
structure Limits.Ample (limits : Limits) (calls : List Call) : Prop where
  digits : limits.digits = none
  liveCalls : (calls.map Call.site).dedup.length ≤ limits.liveCalls

/-- The live calls are different and known, and the budget covers all others. -/
structure HasRoom (known : List Call) (budget : Nat) (live : List Expr) : Prop where
  nodup : (liveSites live).Nodup
  among : liveSites live ⊆ known.map Call.site
  room : (known.map Call.site).dedup.length ≤ budget + (liveSites live).length

namespace HasRoom

variable {known : List Call} {budget : Nat} {live : List Expr} {call : Call}

theorem length_lt (room : HasRoom known budget live) (isKnown : call ∈ known)
    (notLive : call.isLive live = false) :
    (liveSites live).length < (known.map Call.site).dedup.length := by
  have fresh := isLive_eq_false_iff.mp notLive
  have distinct : (call.site :: liveSites live).Nodup := List.nodup_cons.mpr ⟨fresh, room.nodup⟩
  have included : call.site :: liveSites live ⊆ (known.map Call.site).dedup := by
    intro site member
    rw [List.mem_dedup]
    rcases List.mem_cons.mp member with rfl | earlier
    · exact List.mem_map_of_mem isKnown
    · exact room.among earlier
  exact (List.subperm_of_subset distinct included).length_le

theorem push (room : HasRoom known (budget + 1) live) (isKnown : call ∈ known)
    (notLive : call.isLive live = false) :
    HasRoom known budget (call.toExpr :: live) where
  nodup := by
    rw [liveSites_cons, List.nodup_cons]
    exact ⟨isLive_eq_false_iff.mp notLive, room.nodup⟩
  among := by
    rw [liveSites_cons, List.cons_subset]
    exact ⟨List.mem_map_of_mem isKnown, room.among⟩
  room := by
    have := room.room
    rw [liveSites_cons, List.length_cons]
    omega

/-- Where nothing is live, ample limits leave room for all calls. -/
theorem of_ample {limits : Limits} (ample : limits.Ample known) :
    HasRoom known limits.liveCalls [] where
  nodup := List.nodup_nil
  among := List.nil_subset _
  room := ample.liveCalls

end HasRoom

namespace Program

variable {limits : Limits} {program : Program} {known : List Call}

/-! ## The budget -/

/-- A budget that has room is not used up. -/
theorem Runs.ne_tooManyLiveCalls (bodies : program.bodyCalls ⊆ known) {budget : Nat}
    {live : List Expr} {binding : Binding} {expr : Expr} {result : Except Failure Int}
    {steps : List Step} (runs : Runs limits program budget live binding expr result steps)
    (room : HasRoom known budget live) (calls : expr.calls ⊆ known) :
    result ≠ .error (.evaluation .tooManyLiveCalls) := by
  induction runs using @Runs.rec limits program _
    (fun budget live _ exprs result _ _ => HasRoom known budget live →
      (∀ expr ∈ exprs, expr.calls ⊆ known) →
        result ≠ .error (.evaluation .tooManyLiveCalls))
    (fun budget live _ call result _ _ => HasRoom known budget live →
      call.toExpr.calls ⊆ known → result ≠ .error (.evaluation .tooManyLiveCalls)) with
  | number => simp
  | parameter _ => simp
  | unbound _ => simp
  | call _ ih => exact ih room calls
  | chain _ _ => simp
  | operandFails _ ih =>
      have failed := ih room fun operand inChain =>
        List.Subset.trans (Expr.calls_operands_subset inChain) calls
      simpa using failed
  | foreign => simp
  | nil _ _ => simp
  | cons _ _ _ _ _ _ => simp
  | firstFails _ ih room calls =>
      have failed := ih room (calls _ List.mem_cons_self)
      simpa using failed
  | laterFails _ _ _ ih room calls =>
      exact ih room fun expr later => calls expr (List.mem_cons_of_mem _ later)
  | reentered _ _ _ => simp [Failure.quoting_eq_evaluation_iff]
  | exhausted notLive room calls =>
      have := room.length_lt (calls (Call.self_mem_calls _)) notLive
      have := room.room
      omega
  | argumentFails notLive _ ih room calls =>
      have failed := ih (room.push (calls (Call.self_mem_calls _)) notLive) fun argument given =>
        List.Subset.trans (Call.calls_argument_subset given) calls
      simpa using failed
  | unknownFunction => simp [Failure.quoting_eq_evaluation_iff]
  | entryFault => simp
  | wrongArgumentCount => simp
  | bodyFails notLive _ found _ _ _ _ ih room calls =>
      exact ih (room.push (calls (Call.self_mem_calls _)) notLive)
        (List.Subset.trans (calls_body_subset found) bodies)
  | exitFault => simp
  | returns => simp

/-! ## Faults -/

/-- A number in the call keeps its text from being written. -/
theorem exists_of_render_eq_error {call : Call} {fault : Fault} (genuine : call.toExpr.Genuine)
    (failed : call.render limits = .error fault) :
    ∃ value, limits.write value = .error fault := by
  rcases genuine.exists_of_render_eq_error failed with ⟨value, _, _, tooLong⟩
  exact ⟨value, tooLong⟩

/-- The step into a genuine call cannot be shown because of one of its values or
of a number in the call. -/
theorem exists_of_entryText_eq_error {call : Call} {values : List Int} {fault : Fault}
    (genuine : call.toExpr.Genuine) (failed : call.entryText limits values = .error fault) :
    ∃ value, limits.write value = .error fault := by
  cases values with
  | nil => exact exists_of_render_eq_error genuine failed
  | cons value rest =>
      rcases Except.of_bind_eq_error failed with unwritten | ⟨_, _, joined⟩
      · rcases exists_of_mapM_eq_error unwritten with ⟨other, _, tooLong⟩
        exact ⟨other, tooLong⟩
      · cases joined

theorem of_exitText_eq_error {call : Call} {value : Int} {fault : Fault}
    (failed : call.exitText limits value = .error fault) :
    limits.write value = .error fault := by
  rcases Except.of_bind_eq_error failed with unwritten | ⟨_, _, joined⟩
  · exact unwritten
  · cases joined

/-- Where nothing is foreign, the only fault is a number that is too long to be
written. -/
theorem Runs.exists_of_fault (bodies : ∀ body ∈ program.bodies, body.Genuine) {budget : Nat}
    {live : List Expr} {binding : Binding} {expr : Expr} {result : Except Failure Int}
    {steps : List Step} (runs : Runs limits program budget live binding expr result steps)
    (genuine : expr.Genuine) {fault : Fault} (failed : result = .error (.fault fault)) :
    ∃ value, limits.write value = .error fault := by
  induction runs using @Runs.rec limits program _
    (fun _ _ _ exprs result _ _ => (∀ expr ∈ exprs, expr.Genuine) →
      result = .error (.fault fault) → ∃ value, limits.write value = .error fault)
    (fun _ _ _ call result _ _ => call.toExpr.Genuine → result = .error (.fault fault) →
      ∃ value, limits.write value = .error fault) with
  | number => cases failed
  | parameter _ => cases failed
  | unbound _ => cases failed
  | call _ ih => exact ih genuine failed
  | chain _ _ => cases failed
  | operandFails _ ih =>
      cases failed
      exact ih (fun operand inChain => genuine.of_subset (Expr.parts_operands_subset inChain)) rfl
  | foreign => exact absurd (Expr.self_mem_parts _) (genuine _ _)
  | nil _ failed => cases failed
  | cons _ _ _ _ _ failed => cases failed
  | firstFails _ ih genuine failed =>
      cases failed
      exact ih (genuine _ List.mem_cons_self) rfl
  | laterFails _ _ _ ih genuine failed =>
      exact ih (fun expr later => genuine expr (List.mem_cons_of_mem _ later)) failed
  | reentered _ genuine failed =>
      rw [Except.error.injEq, Failure.quoting_eq_fault_iff] at failed
      exact exists_of_render_eq_error genuine failed
  | exhausted _ _ failed => cases failed
  | argumentFails _ _ ih genuine failed =>
      cases failed
      exact ih (fun argument given =>
        genuine.of_subset (Expr.parts_argument_subset given _ _ _)) rfl
  | unknownFunction _ _ _ _ genuine failed =>
      rw [Except.error.injEq, Failure.quoting_eq_fault_iff] at failed
      exact exists_of_render_eq_error genuine failed
  | entryFault _ _ _ unwritten _ genuine failed =>
      cases failed
      exact exists_of_entryText_eq_error genuine unwritten
  | wrongArgumentCount _ _ _ _ _ _ _ failed => cases failed
  | bodyFails _ _ found _ _ _ _ ih _ failed =>
      exact ih (bodies _ (body_mem_bodies found)) failed
  | exitFault _ _ _ _ _ _ unwritten _ _ _ failed =>
      cases failed
      exact ⟨_, of_exitText_eq_error unwritten⟩
  | returns _ _ _ _ _ _ _ _ _ _ failed => cases failed

/-- Without a limit on numerals and without foreign parts there is no fault. -/
theorem Runs.ne_fault (unbounded : limits.digits = none)
    (bodies : ∀ body ∈ program.bodies, body.Genuine) {budget : Nat} {live : List Expr}
    {binding : Binding} {expr : Expr} {result : Except Failure Int} {steps : List Step}
    (runs : Runs limits program budget live binding expr result steps)
    (genuine : expr.Genuine) (fault : Fault) : result ≠ .error (.fault fault) := by
  intro failed
  rcases runs.exists_of_fault bodies genuine failed with ⟨value, tooLong⟩
  rw [Limits.write_eq_ok unbounded] at tooLong
  cases tooLong

/-! ## Settled results -/

/-- A failure that the program itself causes, and not the guard, a limit or a
fault. -/
def IsProgramError : Failure → Prop
  | .evaluation (.diverges _ _) => False
  | .evaluation .tooManyLiveCalls => False
  | .fault _ => False
  | _ => True

/-- A value, or a failure that the program itself causes. -/
def Settled {α : Type} (result : Except Failure α) : Prop :=
  ∀ failure, result = .error failure → IsProgramError failure

theorem settled_ok {α : Type} (value : α) : Settled (.ok value) := by
  simp [Settled]

@[simp]
theorem settled_error_iff {α : Type} {failure : Failure} :
    Settled (.error failure : Except Failure α) ↔ IsProgramError failure := by
  simp [Settled]

/-- A run that settles has a derivation without the guard. -/
theorem Runs.evaluates {budget : Nat} {live : List Expr} {binding : Binding} {expr : Expr}
    {result : Except Failure Int} {steps : List Step}
    (runs : Runs limits program budget live binding expr result steps)
    (settled : Settled result) : Evaluates limits program binding expr result := by
  induction runs using @Runs.rec limits program _
    (fun _ _ binding exprs result _ _ => Settled result →
      EvaluatesAll limits program binding exprs result)
    (fun _ _ binding call result _ _ => Settled result →
      EvaluatesCall limits program binding call result) with
  | number => exact .number
  | parameter bound => exact .parameter bound
  | unbound free => exact .unbound free
  | call _ ih => exact .call (ih settled)
  | chain _ ih => exact .chain (ih (settled_ok _))
  | operandFails _ ih =>
      rw [settled_error_iff] at settled
      exact .operandFails (ih (settled_error_iff.mpr settled))
  | foreign => exact .foreign
  | nil _ => exact .nil
  | cons _ _ firstIh othersIh _ =>
      exact .cons (firstIh (settled_ok _)) (othersIh (settled_ok _))
  | firstFails _ ih settled =>
      rw [settled_error_iff] at settled
      exact .firstFails (ih (settled_error_iff.mpr settled))
  | laterFails _ _ firstIh othersIh settled =>
      exact .laterFails (firstIh (settled_ok _)) (othersIh settled)
  | @reentered _ _ _ call _ settled =>
      rw [settled_error_iff] at settled
      cases written : call.render limits <;>
        simp [Failure.quoting, IsProgramError, written] at settled
  | exhausted _ settled => exact (settled_error_iff.mp settled).elim
  | argumentFails _ _ ih settled =>
      rw [settled_error_iff] at settled
      exact .argumentFails (ih (settled_error_iff.mpr settled))
  | unknownFunction _ _ unknown ih _ => exact .unknownFunction (ih (settled_ok _)) unknown
  | entryFault _ _ _ _ _ settled => exact (settled_error_iff.mp settled).elim
  | wrongArgumentCount _ _ found _ mismatch ih _ =>
      exact .wrongArgumentCount (ih (settled_ok _)) found mismatch
  | bodyFails _ _ found _ fits _ ih bodyIh settled =>
      exact .body (ih (settled_ok _)) found fits (bodyIh settled)
  | exitFault _ _ _ _ _ _ _ _ _ settled => exact (settled_error_iff.mp settled).elim
  | returns _ _ found _ fits _ _ ih bodyIh _ =>
      exact .body (ih (settled_ok _)) found fits (bodyIh (settled_ok _))

/-- Where numerals may have any length and the budget covers all calls, only
the guard keeps an evaluation from settling. -/
theorem evaluate_settled_or_diverges (ample : limits.Ample known)
    (bodies : program.bodyCalls ⊆ known) (allGenuine : ∀ body ∈ program.bodies, body.Genuine)
    {expr : Expr} (calls : expr.calls ⊆ known) (genuine : expr.Genuine) (binding : Binding) :
    Settled (program.evaluate limits binding expr).onNewMachine.1 ∨
      ∃ cited text, (program.evaluate limits binding expr).onNewMachine.1 =
        .error (.evaluation (.diverges cited text)) := by
  rcases exists_runs_onNewMachine limits program binding expr with ⟨steps, runs⟩
  have notExhausted := runs.ne_tooManyLiveCalls bodies (.of_ample ample) calls
  have noFault := runs.ne_fault ample.digits allGenuine genuine
  generalize (program.evaluate limits binding expr).onNewMachine.1 = result at *
  rcases result with failure | value
  · rw [settled_error_iff]
    cases failure with
    | source error => exact Or.inl trivial
    | fault fault => exact absurd rfl (noFault fault)
    | evaluation error =>
        cases error with
        | diverges cited text => exact Or.inr ⟨cited, text, rfl⟩
        | tooManyLiveCalls => exact absurd rfl notExhausted
        | _ => exact Or.inl trivial
  · exact Or.inl (settled_ok value)

/-! ## Refused calls -/

/-- All live calls are known and lead to every one of the targets. -/
def LiveLeadTo (program : Program) (known : List Call) (live : List Expr)
    (targets : List Call) : Prop :=
  ∀ entry ∈ live, ∃ call ∈ known, entry = call.toExpr ∧
    ∀ target ∈ targets, Relation.TransGen program.Demands call target

namespace LiveLeadTo

variable {live : List Expr} {targets : List Call}

theorem mono (leads : LiveLeadTo program known live targets) {fewer : List Call}
    (subset : fewer ⊆ targets) : LiveLeadTo program known live fewer := by
  intro entry isLive
  rcases leads entry isLive with ⟨call, isKnown, rfl, paths⟩
  exact ⟨call, isKnown, rfl, fun target member => paths target (subset member)⟩

/-- A call that becomes live leads to what it demands, and so does what was
live before. -/
theorem push {call : Call} {demanded : List Call}
    (leads : LiveLeadTo program known live targets) (isTarget : call ∈ targets)
    (isKnown : call ∈ known)
    (demands : ∀ target ∈ demanded, program.Demands call target) :
    LiveLeadTo program known (call.toExpr :: live) demanded := by
  intro entry isLive
  rcases List.mem_cons.mp isLive with rfl | earlier
  · exact ⟨call, isKnown, rfl, fun target member =>
      Relation.TransGen.single (demands target member)⟩
  · rcases leads entry earlier with ⟨outer, outerKnown, rfl, paths⟩
    exact ⟨outer, outerKnown, rfl, fun target member =>
      Relation.TransGen.tail (paths call isTarget) (demands target member)⟩

/-- A target that is live leads to itself. -/
theorem cycle {call : Call} (leads : LiveLeadTo program known live targets)
    (identified : IdentifiedBySite known) (isTarget : call ∈ targets)
    (isKnown : call ∈ known) (isLive : call.isLive live = true) :
    Relation.TransGen program.Demands call call := by
  rcases List.mem_filterMap.mp (isLive_iff.mp isLive) with ⟨entry, inLive, site⟩
  rcases leads entry inLive with ⟨other, otherKnown, rfl, paths⟩
  have same : other = call := identified other otherKnown call isKnown (Option.some.inj site)
  subst same
  exact paths other isTarget

end LiveLeadTo

/-- One of the calls leads to the cited one, and that leads to itself. -/
def LeadToCycle (program : Program) (calls : List Call) (cited : Call) : Prop :=
  (∃ call ∈ calls, Relation.ReflTransGen program.Demands call cited) ∧
    Relation.TransGen program.Demands cited cited

namespace LeadToCycle

variable {calls : List Call} {cited : Call}

theorem mono (cycle : LeadToCycle program calls cited) {more : List Call}
    (subset : calls ⊆ more) : LeadToCycle program more cited := by
  rcases cycle with ⟨⟨call, member, path⟩, back⟩
  exact ⟨⟨call, subset member, path⟩, back⟩

/-- What a call demands leads where the call leads. -/
theorem of_demands {call : Call} (cycle : LeadToCycle program calls cited)
    (demands : ∀ demanded ∈ calls, program.Demands call demanded) :
    LeadToCycle program call.toExpr.calls cited := by
  rcases cycle with ⟨⟨demanded, member, path⟩, back⟩
  exact ⟨⟨call, call.self_mem_calls, path.head (demands demanded member)⟩, back⟩

end LeadToCycle

/-- A call that is refused demands itself, and the expression leads to it. -/
theorem Runs.leadToCycle (bodies : program.bodyCalls ⊆ known)
    (identified : IdentifiedBySite known) {budget : Nat} {live : List Expr}
    {binding : Binding} {expr : Expr} {result : Except Failure Int} {steps : List Step}
    (runs : Runs limits program budget live binding expr result steps)
    {cited : Call} {text : String}
    (refused : result = .error (.evaluation (.diverges cited text)))
    (calls : expr.calls ⊆ known) (leads : LiveLeadTo program known live expr.calls) :
    LeadToCycle program expr.calls cited := by
  induction runs using @Runs.rec limits program _
    (fun _ live _ exprs result _ _ => result = .error (.evaluation (.diverges cited text)) →
      (∀ expr ∈ exprs, expr.calls ⊆ known) →
      LiveLeadTo program known live (exprs.flatMap Expr.calls) →
      LeadToCycle program (exprs.flatMap Expr.calls) cited)
    (fun _ live _ call result _ _ => result = .error (.evaluation (.diverges cited text)) →
      call.toExpr.calls ⊆ known → LiveLeadTo program known live call.toExpr.calls →
      LeadToCycle program call.toExpr.calls cited) with
  | number => cases refused
  | parameter _ => cases refused
  | unbound _ => cases refused
  | call _ ih => exact ih refused calls leads
  | chain _ _ => cases refused
  | operandFails _ ih =>
      cases refused
      rw [Expr.calls_operands] at ih
      exact ih rfl (fun operand inChain =>
        List.Subset.trans (Expr.calls_operands_subset inChain) calls) leads
  | foreign => cases refused
  | nil refused => cases refused
  | cons _ _ _ _ refused => cases refused
  | firstFails _ ih refused calls leads =>
      cases refused
      rw [List.flatMap_cons] at leads ⊢
      have cycle := ih rfl (calls _ List.mem_cons_self)
        (leads.mono (List.subset_append_left _ _))
      exact cycle.mono (List.subset_append_left _ _)
  | laterFails _ _ _ ih refused calls leads =>
      rw [List.flatMap_cons] at leads ⊢
      have cycle := ih refused (fun expr later => calls expr (List.mem_cons_of_mem _ later))
        (leads.mono (List.subset_append_right _ _))
      exact cycle.mono (List.subset_append_right _ _)
  | reentered isLive refused calls leads =>
      rw [Except.error.injEq, Failure.quoting_eq_evaluation_iff] at refused
      rcases refused with ⟨_, _, equal⟩
      cases equal
      have itself := cited.self_mem_calls
      exact ⟨⟨cited, itself, .refl⟩, leads.cycle identified itself (calls itself) isLive⟩
  | exhausted _ refused => cases refused
  | @argumentFails _ _ _ call _ _ _ _ ih refused calls leads =>
      cases refused
      have itself := call.self_mem_calls
      have demands : ∀ demanded ∈ call.arguments.flatMap Expr.calls,
          program.Demands call demanded := by
        intro demanded member
        exact Or.inl (List.mem_flatMap.mp member)
      have cycle := ih rfl
        (fun argument given => List.Subset.trans (Call.calls_argument_subset given) calls)
        (leads.push itself (calls itself) demands)
      exact cycle.of_demands demands
  | unknownFunction _ _ _ _ refused =>
      simp [Failure.quoting_eq_evaluation_iff] at refused
  | entryFault _ _ _ _ _ refused => cases refused
  | wrongArgumentCount _ _ _ _ _ _ refused => cases refused
  | @bodyFails _ _ _ call _ _ _ callee _ _ _ _ found _ _ _ _ ih refused calls leads =>
      have itself := call.self_mem_calls
      have demands : ∀ demanded ∈ callee.body.calls, program.Demands call demanded :=
        fun demanded member => Or.inr ⟨callee, found, member⟩
      have cycle := ih refused (List.Subset.trans (calls_body_subset found) bodies)
        (leads.push itself (calls itself) demands)
      exact cycle.of_demands demands
  | exitFault _ _ _ _ _ _ _ _ _ refused => cases refused
  | returns _ _ _ _ _ _ _ _ _ refused => cases refused

end Program

end Polycalc
