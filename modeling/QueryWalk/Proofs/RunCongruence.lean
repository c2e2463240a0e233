import QueryWalk.Proofs.HandlerLikeness
import QueryWalk.Walker

namespace QueryWalk

/-!
# Congruences of runs

A congruence relates runs in such a way that all that runs are made with keeps the
relation: going on with an outcome, collecting results, catching failures. Then a
handler whose services are related does related things, and so does a walker: whatever
two walkers give is related as soon as their visits of one node are, the services one
level of recursion below being related.
-/

namespace Run

/-- Catching a failure and failing with it again changes nothing. -/
theorem attempt_bind_ofExcept
    {Outcome : Type}
    (run : Run Outcome) :
    run.attempt.bind ofExcept = run := by
  induction run with
  | done outcome | failed failure | exhausted =>
      rfl
  | note noted rest inductionHypothesis
  | deliver value rest inductionHypothesis =>
      simp only [attempt, bind, inductionHypothesis]
  | resolve kind rest inductionHypothesis =>
      simp only [attempt, bind, inductionHypothesis]

end Run

namespace Finish

/-- The scope in which actions finished, or their failure once more. -/
def settle (finish : Finish) : Run Scope :=
  match finish.failure with
  | none => .done finish.scope
  | some failure => .failed failure

/-- Work that changes the registers settles to itself. -/
theorem perform_bind_settle
    (scope : Scope)
    (work : Run Scope) :
    (perform scope work).bind settle = work := by
  rw [perform, Run.bind_bind]
  conv =>
    rhs
    rw [← work.attempt_bind_ofExcept]
  congr 1
  funext outcome
  cases outcome <;> rfl

/-- What goes on after some actions settles in turn. -/
theorem bind_andThen_settle
    (run : Run Finish)
    (next : Scope → Run Finish) :
    (run.bind fun finish => finish.andThen next).bind settle =
      (run.bind settle).bind fun scope => (next scope).bind settle := by
  rw [Run.bind_bind, Run.bind_bind]
  congr 1
  funext finish
  rcases finish with ⟨scope, _ | failure⟩ <;> rfl

end Finish

/-- A relation of runs that all that runs are made with keeps. -/
structure Congruence where
  relates : {Outcome : Type} → Run Outcome → Run Outcome → Prop
  /-- The values that a handler may log. -/
  logs : Value → Prop
  /-- Whether a handler may catch failures. -/
  catches : Prop
  done :
    ∀ {Outcome : Type} (outcome : Outcome),
      relates (.done outcome) (.done outcome)
  failed :
    ∀ {Outcome : Type} (failure : Failure),
      relates (.failed failure : Run Outcome) (.failed failure)
  exhausted :
    ∀ {Outcome : Type}, relates (.exhausted : Run Outcome) .exhausted
  log :
    ∀ {value},
      logs value →
      relates (.noting (.entry (.logged value)))
        (.noting (.entry (.logged value)))
  /-- The fallback is called. -/
  entered :
    ∀ node context,
      relates (.noting (.entered none node context))
        (.noting (.entered none node context))
  delivering :
    ∀ value, relates (.delivering value) (.delivering value)
  bind :
    ∀ {Outcome Next : Type} {run other : Run Outcome}
      {next further : Outcome → Run Next},
      relates run other →
      (∀ outcome, relates (next outcome) (further outcome)) →
      relates (run.bind next) (other.bind further)
  gather :
    ∀ {run other : Run Unit},
      relates run other →
      relates run.gather other.gather
  attempt :
    ∀ {Outcome : Type} {run other : Run Outcome},
      catches →
      relates run other →
      relates run.attempt other.attempt

namespace Congruence

variable (congruence : Congruence)

/-- The same outcome that may be missing leads to related runs. -/
theorem ofExcept_bind
    {Outcome Next : Type}
    {outcome : Except Failure Outcome}
    {next further : Outcome → Run Next}
    (onward :
      ∀ value,
        outcome = .ok value →
        congruence.relates (next value) (further value)) :
    congruence.relates ((Run.ofExcept outcome).bind next)
      ((Run.ofExcept outcome).bind further) := by
  cases outcome with
  | ok value =>
      exact onward value rfl
  | error failure =>
      exact congruence.failed failure

/-- An outcome that may be missing is related to itself. -/
theorem ofExcept
    {Outcome : Type}
    (outcome : Except Failure Outcome) :
    congruence.relates (Run.ofExcept outcome) (Run.ofExcept outcome) := by
  cases outcome with
  | ok value =>
      exact congruence.done value
  | error failure =>
      exact congruence.failed failure

/-- Delivering some values is related to itself. -/
theorem deliverAll
    (values : List Value) :
    congruence.relates (Run.deliverAll values) (Run.deliverAll values) := by
  induction values with
  | nil =>
      exact congruence.done ()
  | cons value rest inductionHypothesis =>
      exact congruence.bind (congruence.delivering value)
        fun _ => inductionHypothesis

/-- Related runs are related when their results are delivered at their ends. -/
theorem regather
    {run other : Run Unit}
    (related : congruence.relates run other) :
    congruence.relates (run.gather.bind Run.deliverAll)
      (other.gather.bind Run.deliverAll) :=
  congruence.bind (congruence.gather related) congruence.deliverAll

/--
Actions finish in related ways: they are related once their failure is one of the run,
and before that too if failures may be caught.
-/
structure Finishes (run other : Run Finish) : Prop where
  settled :
    congruence.relates (run.bind Finish.settle) (other.bind Finish.settle)
  whole :
    congruence.catches →
    congruence.relates run other

namespace Finishes

variable
  {congruence : Congruence}
  {run other : Run Finish}

/-- Related runs of actions finish in related ways. -/
theorem of_relates
    (related : congruence.relates run other) :
    congruence.Finishes run other where
  settled := by
    apply congruence.bind related
    rintro ⟨scope, _ | failure⟩
    · exact congruence.done scope
    · exact congruence.failed failure
  whole _ := related

/-- Related changes of the registers finish in related ways. -/
theorem perform
    {scope : Scope}
    {work otherWork : Run Scope}
    (related : congruence.relates work otherWork) :
    congruence.Finishes (Finish.perform scope work)
      (Finish.perform scope otherWork) where
  settled := by
    rw [Finish.perform_bind_settle, Finish.perform_bind_settle]
    exact related
  whole catches := by
    apply congruence.bind (congruence.attempt catches related)
    rintro (failure | changed)
    · exact congruence.done _
    · exact congruence.done _

/-- Related work without an outcome finishes in related ways. -/
theorem effect
    {scope : Scope}
    {work otherWork : Run Unit}
    (related : congruence.relates work otherWork) :
    congruence.Finishes (Finish.effect scope work)
      (Finish.effect scope otherWork) :=
  perform (congruence.bind related fun _ => congruence.done scope)

/-- Actions go on in related ways. -/
theorem andThen
    {next further : Scope → Run Finish}
    (finishes : congruence.Finishes run other)
    (onward :
      ∀ scope, congruence.Finishes (next scope) (further scope)) :
    congruence.Finishes (run.bind fun finish => finish.andThen next)
      (other.bind fun finish => finish.andThen further) where
  settled := by
    rw [Finish.bind_andThen_settle, Finish.bind_andThen_settle]
    exact congruence.bind finishes.settled
      fun scope => (onward scope).settled
  whole catches := by
    apply congruence.bind (finishes.whole catches)
    rintro ⟨scope, _ | failure⟩
    · exact (onward scope).whole catches
    · exact congruence.done _

end Finishes

end Congruence

/-- An action logs what may be logged, and catches failures only if it may. -/
def Action.SuitsTo (congruence : Congruence) : Action → Prop
  | .log value =>
      ∀ scope logged,
        value.eval scope = .ok logged →
        congruence.logs logged
  | .rescue .. => congruence.catches
  | _ => True

/-- Where everything may be logged and caught, all handlers may be run. -/
theorem Handler.suits
    {congruence : Congruence}
    (logs : ∀ value, congruence.logs value)
    (catches : congruence.catches)
    (handler : Handler) :
    handler.Throughout (Action.SuitsTo congruence) := by
  apply Action.allThroughout_of_forall
  intro action
  cases action with
  | log =>
      exact fun _ logged _ => logs logged
  | rescue =>
      exact catches
  | _ =>
      trivial

/-- Services that go down in the same way and give related runs. -/
structure Services.Related
    (congruence : Congruence)
    (services others : Services) : Prop where
  descend :
    ∀ (parent : Node) (index : Number) (context : Context),
      context.descend services.settings parent index =
        context.descend others.settings parent index
  visitNode :
    ∀ node context,
      congruence.relates (services.visitNode node context)
        (others.visitNode node context)
  generic :
    ∀ node context,
      congruence.relates (services.generic node context)
        (others.generic node context)
  structural :
    ∀ node context,
      congruence.relates (services.structural node context)
        (others.structural node context)
  rebuild :
    ∀ node context,
      congruence.relates (services.rebuild node context)
        (others.rebuild node context)
  restart :
    ∀ tree keys,
      congruence.relates (services.restart tree keys)
        (others.restart tree keys)

section Related

variable
  {congruence : Congruence}
  {services others : Services}

/-- Children are visited one level down in related ways. -/
theorem Services.Related.visitBelow
    (related : services.Related congruence others)
    (parent : Node)
    (index : Number)
    (child : Node)
    (above : Context) :
    congruence.relates (services.visitBelow parent index child above)
      (others.visitBelow parent index child above) := by
  unfold Services.visitBelow
  rw [related.descend]
  exact congruence.ofExcept_bind fun below _ =>
    related.visitNode child below

namespace Action

/-- Related services are called back in related ways. -/
theorem callback_relates
    {Outcome : Type}
    {service otherService : Node → Context → Run Outcome}
    (relates :
      ∀ node context,
        congruence.relates (service node context)
          (otherService node context))
    (scope : Scope)
    (subject : Expression)
    (change : Change) :
    congruence.relates (callback scope service subject change)
      (callback scope otherService subject change) :=
  congruence.ofExcept_bind fun value _ =>
    congruence.ofExcept_bind fun changed _ =>
      relates value.asNode changed

mutual

/-- An action with related services finishes in related ways. -/
theorem run_finishes
    (related : services.Related congruence others) :
    ∀ (action : Action) (scope : Scope),
      action.Throughout (SuitsTo congruence) →
      congruence.Finishes (action.run services scope)
        (action.run others scope)
  | .deliver value, scope, _ => by
      unfold Action.run
      exact .effect
        (congruence.ofExcept_bind fun result _ =>
          congruence.delivering result)
  | .deliverAll values, scope, _ => by
      unfold Action.run
      exact .effect
        (congruence.ofExcept_bind fun results _ =>
          congruence.deliverAll results.items)
  | .log value, scope, suits => by
      unfold Action.run
      exact .effect
        (congruence.ofExcept_bind fun logged evaluated =>
          congruence.log (suits scope logged evaluated))
  | .fail wording, scope, _ => by
      unfold Action.run
      exact .effect (congruence.failed _)
  | .generic subject change, scope, _ => by
      unfold Action.run
      exact .effect
        (callback_relates related.generic scope subject change)
  | .structural subject change, scope, _ => by
      unfold Action.run
      exact .effect
        (callback_relates related.structural scope subject change)
  | .child place index change, scope, _ => by
      rw [run_child, run_child]
      exact .effect
        (congruence.ofExcept_bind fun above _ =>
          related.visitBelow scope.node index _ above)
  | .visit subject change, scope, _ => by
      unfold Action.run
      exact .effect
        (callback_relates related.visitNode scope subject change)
  | .visitUnder subject parent index change, scope, _ => by
      rw [run_visitUnder, run_visitUnder]
      exact .effect
        (congruence.ofExcept_bind fun value _ =>
          callback_relates
            (fun upper above =>
              related.visitBelow upper index value.asNode above)
            scope parent change)
  | .rebuild subject change, scope, _ => by
      unfold Action.run
      exact .perform
        (congruence.bind
          (callback_relates related.rebuild scope subject change)
          fun _ => congruence.done _)
  | .restart tree start, scope, _ => by
      unfold Action.run
      exact .effect
        (congruence.ofExcept_bind fun root _ =>
          congruence.ofExcept_bind fun keys _ =>
            congruence.bind (related.restart root.asNode keys)
              congruence.delivering)
  | .choose condition consequence alternative, scope, suits => by
      unfold Action.run
      split
      · exact runAll_finishes related consequence scope suits.2.1
      · exact runAll_finishes related alternative scope suits.2.2
      · exact .of_relates (congruence.done _)
  | .rescue body handling, scope, suits => by
      have catches : congruence.catches := suits.1
      have tried := runAll_finishes related body scope suits.2.1
      unfold Action.run
      apply Congruence.Finishes.of_relates
      apply congruence.bind (tried.whole catches)
      rintro ⟨after, _ | failure⟩
      · exact congruence.done _
      · exact (runAll_finishes related handling _ suits.2.2).whole catches

/-- Actions with related services finish in related ways. -/
theorem runAll_finishes
    (related : services.Related congruence others) :
    ∀ (actions : List Action) (scope : Scope),
      AllThroughout (SuitsTo congruence) actions →
      congruence.Finishes (runAll services scope actions)
        (runAll others scope actions)
  | [], scope, _ => by
      unfold runAll
      exact .of_relates (congruence.done _)
  | action :: rest, scope, suit => by
      unfold runAll
      exact (run_finishes related action scope suit.1).andThen
        fun after => runAll_finishes related rest after suit.2

end

end Action

namespace Handler

/-- What the actions of a handler give is settled when they finish. -/
theorem body_eq_settled
    (handler : Handler)
    (services : Services)
    (node : Node)
    (context : Context) :
    handler.body services node context =
      ((Action.runAll services (.start node context)
          handler.actions).bind Finish.settle).bind
        fun _ => .done () := by
  rw [Run.bind_bind]
  unfold body
  congr 1
  funext finish
  rcases finish with ⟨scope, _ | failure⟩ <;> rfl

/-- A handler with related services gives related results. -/
theorem body_relates
    (related : services.Related congruence others)
    {handler : Handler}
    (suits : handler.Throughout (Action.SuitsTo congruence))
    (node : Node)
    (context : Context) :
    congruence.relates (handler.body services node context)
      (handler.body others node context) := by
  rw [body_eq_settled, body_eq_settled]
  exact congruence.bind
    (Action.runAll_finishes related handler.actions _ suits).settled
    fun _ => congruence.done ()

/-- What a handler gives when its call is run, and then what the call leaves. -/
def given
    (handler : Handler)
    (services : Services)
    (node : Node)
    (context : Context) :
    Run Unit :=
  (handler.call services node context).bind id

/-- An eager handler gives all results when its actions have come to their end. -/
theorem given_of_eager
    {handler : Handler}
    (eager : handler.eager = true)
    (services : Services)
    (node : Node)
    (context : Context) :
    handler.given services node context =
      (handler.body services node context).gather.bind Run.deliverAll := by
  rw [given, call, if_pos eager, Run.bind_bind]
  rfl

/-- A lazy handler gives its results as its actions deliver them. -/
theorem given_of_lazy
    {handler : Handler}
    (isLazy : handler.eager = false)
    (services : Services)
    (node : Node)
    (context : Context) :
    handler.given services node context =
      handler.body services node context := by
  rw [given, call, if_neg (Bool.eq_false_iff.mp isLazy)]
  rfl

/-- A handler with related services gives related results at related moments. -/
theorem given_relates
    (related : services.Related congruence others)
    {handler : Handler}
    (suits : handler.Throughout (Action.SuitsTo congruence))
    (node : Node)
    (context : Context) :
    congruence.relates (handler.given services node context)
      (handler.given others node context) := by
  have body := body_relates related suits node context
  cases isEager : handler.eager with
  | true =>
      rw [given_of_eager isEager, given_of_eager isEager]
      exact congruence.regather body
  | false =>
      rw [given_of_lazy isEager, given_of_lazy isEager]
      exact body

end Handler

namespace Walker

/-- The call of a handler is noted before the handler gives anything. -/
theorem callHandler_bind_id
    (services : Services)
    (type : Option NodeType)
    (handler : Handler)
    (node : Node)
    (context : Context) :
    (callHandler services type handler node context).bind id =
      (Run.noting (.entered type node context)).bind fun _ =>
        handler.given services node context := by
  simp only [callHandler, Run.bind_eq, Run.bind_bind]
  rfl

section Engine

variable (related : services.Related congruence others)

include related

/-- Children are visited in related ways. -/
theorem visitChildren_relates
    (node : Node)
    (context : Context)
    (first : Nat)
    (children : List Node) :
    congruence.relates (visitChildren services node context first children)
      (visitChildren others node context first children) := by
  induction children generalizing first with
  | nil =>
      exact congruence.done ()
  | cons child rest inductionHypothesis =>
      rw [visitChildren_cons, visitChildren_cons]
      exact congruence.bind
        (related.visitBelow node (.ofNat first) child context)
        fun _ => inductionHypothesis (first + 1)

/-- Nodes are rebuilt in related ways. -/
theorem rebuild_relates
    (node : Node)
    (context : Context) :
    congruence.relates (rebuild services node context)
      (rebuild others node context) := by
  unfold rebuild
  split
  · exact congruence.done node
  · have visited :=
      visitChildren_relates related node context 0 node.children
    exact congruence.bind (congruence.gather visited)
      fun replacements => congruence.ofExcept _

/-- The built-in fallbacks of two walkers of one mode are related. -/
theorem callStructural_relates
    {left right : Walker}
    (sameMode : left.mode = right.mode)
    (node : Node)
    (context : Context) :
    congruence.relates
      ((left.callStructural services node context).bind id)
      ((right.callStructural others node context).bind id) := by
  unfold callStructural
  rw [← sameMode]
  cases left.mode with
  | visitor =>
      exact visitChildren_relates related node context 0 node.children
  | transformer =>
      simp only [Run.bind_bind]
      exact congruence.bind (rebuild_relates related node context)
        fun rebuilt => congruence.delivering (.node rebuilt)

/-- Fallbacks that are not replaced, or by the same handler, are related. -/
theorem callGeneric_relates
    {left right : Walker}
    (sameMode : left.mode = right.mode)
    (sameFallback : left.fallback = right.fallback)
    (suits :
      ∀ handler,
        left.fallback = some handler →
        handler.Throughout (Action.SuitsTo congruence))
    (node : Node)
    (context : Context) :
    congruence.relates ((left.callGeneric services node context).bind id)
      ((right.callGeneric others node context).bind id) := by
  unfold callGeneric
  rw [← sameFallback]
  cases given : left.fallback with
  | none =>
      exact callStructural_relates related sameMode node context
  | some handler =>
      simp only [callHandler_bind_id]
      exact congruence.bind (congruence.entered node context)
        fun _ =>
          Handler.given_relates related (suits handler given) node context

end Engine

/-- What is run for a node once its handler has been chosen. -/
def visitResolved
    (walker : Walker)
    (services : Services)
    (node : Node)
    (context : Context)
    (resolved : Option (Registration Handler)) :
    Run Unit :=
  (notify walker.settings node (resolved.map Registration.type)).bind
    fun _ =>
      match resolved with
      | none => (walker.callGeneric services node context).bind id
      | some registration =>
          (Run.ofExcept (registration.handlerFor node)).bind
            fun handler =>
              (Run.noting
                  (.entered (some registration.type) node context)).bind
                fun _ => handler.given services node context

/-- A node's handler is chosen, and then its call is run and what the call leaves. -/
theorem callNode_bind_id
    (walker : Walker)
    (services : Services)
    (node : Node)
    (context : Context) :
    (walker.callNode services node context).bind id =
      .resolve node.kind (walker.visitResolved services node context) := by
  simp only [callNode, Run.asking, Run.bind_eq, Run.bind]
  congr 1
  funext resolved
  unfold visitResolved
  rw [Run.bind_bind]
  congr 1
  funext _
  cases resolved with
  | none =>
      rfl
  | some registration =>
      simp only [Run.bind_bind, callHandler_bind_id]

/-- What a node gives is related if what its call leaves is. -/
theorem visitNode_relates
    {left right : Walker}
    (sameMode : left.mode = right.mode)
    {node : Node}
    {context : Context}
    (results :
      congruence.relates ((left.callNode services node context).bind id)
        ((right.callNode others node context).bind id)) :
    congruence.relates (left.visitNode services node context)
      (right.visitNode others node context) := by
  simp only [visitNode, ← sameMode]
  cases left.mode with
  | visitor =>
      exact results
  | transformer =>
      exact congruence.regather results

/-- Walkers of one mode rebuild a node in related ways, or both cannot. -/
theorem callRebuild_relates
    (related : services.Related congruence others)
    {left right : Walker}
    (sameMode : left.mode = right.mode)
    (node : Node)
    (context : Context) :
    congruence.relates (left.callRebuild services node context)
      (right.callRebuild others node context) := by
  simp only [callRebuild, ← sameMode]
  cases left.mode with
  | visitor =>
      exact congruence.failed _
  | transformer =>
      exact rebuild_relates related node context

/-- Traversals are related if the visits of their roots are. -/
theorem traverse_relates
    {left right : Walker}
    (sameMode : left.mode = right.mode)
    {tree : Node}
    {keys : Fields Value}
    (visits :
      congruence.relates
        (left.visitNode services tree (.root left.settings keys))
        (right.visitNode others tree (.root right.settings keys))) :
    congruence.relates (left.traverse services tree keys)
      (right.traverse others tree keys) := by
  simp only [traverse, Run.bind_eq]
  rw [← sameMode]
  apply congruence.bind (congruence.gather visits)
  intro results
  split
  · exact congruence.done _
  · exact congruence.done _
  · exact congruence.failed _

/-- What has to be shown of two walkers for all that they give to be related. -/
structure Couples
    (congruence : Congruence)
    (left right : Walker) : Prop where
  mode_eq : left.mode = right.mode
  root :
    ∀ keys,
      Context.root left.settings keys = Context.root right.settings keys
  descend :
    ∀ (parent : Node) (index : Number) (context : Context),
      context.descend left.settings parent index =
        context.descend right.settings parent index
  generic :
    ∀ {services others : Services},
      services.Related congruence others →
      ∀ node context,
        congruence.relates
          ((left.callGeneric services node context).bind id)
          ((right.callGeneric others node context).bind id)
  visitNode :
    ∀ {services others : Services},
      services.Related congruence others →
      ∀ node context,
        congruence.relates (left.visitNode services node context)
          (right.visitNode others node context)

namespace Couples

variable {left right : Walker}

/-- Traversals are related. -/
theorem traverse
    (couples : left.Couples congruence right)
    (related : services.Related congruence others)
    (tree : Node)
    (keys : Fields Value) :
    congruence.relates (left.traverse services tree keys)
      (right.traverse others tree keys) := by
  apply traverse_relates couples.mode_eq
  rw [couples.root]
  exact couples.visitNode related tree _

/-- With the same recursion all services are related. -/
theorem related_services
    (couples : left.Couples congruence right)
    (bound : Nat) :
    (left.services bound).Related congruence (right.services bound) := by
  induction bound with
  | zero =>
      exact
        { descend := couples.descend
          visitNode := fun _ _ => congruence.exhausted
          generic := fun _ _ => congruence.exhausted
          structural := fun _ _ => congruence.exhausted
          rebuild := fun _ _ => congruence.exhausted
          restart := fun _ _ => congruence.exhausted }
  | succ bound inductionHypothesis =>
      exact
        { descend := couples.descend
          visitNode := couples.visitNode inductionHypothesis
          generic := couples.generic inductionHypothesis
          structural :=
            callStructural_relates inductionHypothesis couples.mode_eq
          rebuild :=
            callRebuild_relates inductionHypothesis couples.mode_eq
          restart := couples.traverse inductionHypothesis }

end Couples

end Walker

end Related

end QueryWalk
