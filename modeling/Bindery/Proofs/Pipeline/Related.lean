import Bindery.Pipeline
import Bindery.Proofs.Shell.Act

/-!
# Related shells

A pipeline is put together from commands, directories and events.  So what relates the single
acts of two shells relates their pipelines, if it is kept where acts are put together.

`Act.IsClosed` says this of a relation between acts, and `Shell.Related` says that the acts of
two shells are in such a relation.  `Related.runBook` is the consequence for the pipeline.  A
property of the acts of one shell is the relation that looks at one side only.
-/

namespace Bindery

/-- A relation between acts that is kept where acts are put together. -/
structure Act.IsClosed (R : ∀ {α : Type}, Act α → Act α → Prop) : Prop where
  pure : ∀ {α : Type} (a : α), R (Pure.pure a) (Pure.pure a)
  throw : ∀ {α : Type} (fault : Shell.Fault), R (MonadExcept.throw fault : Act α)
    (MonadExcept.throw fault)
  get : R (MonadState.get : Act Session) MonadState.get
  bind : ∀ {α β : Type} {act act' : Act α} {f f' : α → Act β}, R act act' →
    (∀ a, R (f a) (f' a)) → R (act >>= f) (act' >>= f')
  within : ∀ {α : Type} {body body' : Act α} (target : Path), R body body' →
    R (Shell.within target body) (Shell.within target body')

namespace Shell

/-- Two shells whose single acts are in a relation, with contexts in which the pipeline goes
the same way. -/
structure Related (R : ∀ {α : Type}, Act α → Act α → Prop) (sh sh' : Shell) : Prop
    extends Act.IsClosed R where
  words : ∀ words capture, R (sh.executeWords words capture) (sh'.executeWords words capture)
  target : ∀ path, R (sh.target path) (sh'.target path)
  skipped : R (log skipEvent) (log skipEvent)
  ci : sh'.context.ci = sh.context.ci
  refName : sh'.context.refName = sh.context.refName

namespace Related

variable {R : ∀ {α : Type}, Act α → Act α → Prop} {sh sh' : Shell} {α β : Type}

theorem use (h : Related R sh sh') (setting : Except Settings.Fault α) :
    R (Shell.use setting) (Shell.use setting) := by
  cases setting with
  | ok a => exact h.pure a
  | error fault => exact h.throw _

theorem mapM (h : Related R sh sh') {f f' : α → Act β} (hf : ∀ a, R (f a) (f' a)) (as : List α) :
    R (as.mapM f) (as.mapM f') := by
  induction as with
  | nil => exact h.pure []
  | cons a as ih =>
      rw [List.mapM_cons, List.mapM_cons]
      exact h.bind (hf a) fun b => h.bind ih fun bs => h.pure (b :: bs)

theorem run (h : Related R sh sh') (words : List Value) : R (sh.run words) (sh'.run words) :=
  h.words words false

theorem capture (h : Related R sh sh') (words : List Value) :
    R (sh.capture words) (sh'.capture words) :=
  h.bind (h.words words true) fun _ => h.pure _

theorem inside (h : Related R sh sh') (path : Path) {body body' : Path → Act α}
    (hbody : ∀ dir, R (body dir) (body' dir)) : R (sh.inside path body) (sh'.inside path body') :=
  h.bind (h.target path) fun dir => h.within dir (hbody dir)

/-! ## Stages -/

theorem patchCiDependency (h : Related R sh sh') (c : Settings) :
    R (sh.patchCiDependency c) (sh'.patchCiDependency c) := by
  have hpin (modules : Path) (words : List Value) :
      R (sh.inside modules fun _ => sh.run words) (sh'.inside modules fun _ => sh'.run words) :=
    h.inside modules fun _ => h.run words
  unfold Shell.patchCiDependency
  rw [h.ci]
  split
  · exact h.pure _
  · refine h.bind (h.capture (baseCommand c)) fun base => ?_
    split
    · refine h.bind h.get fun s => h.bind (h.throw _) fun _ => ?_
      exact h.bind (h.use _) fun modules => h.bind (hpin modules _) fun _ => h.pure _
    · exact h.bind (h.use _) fun modules => h.bind (hpin modules _) fun _ => h.pure _

theorem buildSite (h : Related R sh sh') (c : Settings) :
    R (sh.buildSite c) (sh'.buildSite c) := by
  unfold Shell.buildSite
  refine h.bind (h.use _) fun docs => h.bind (h.inside docs fun dir => ?_) fun _ => h.pure _
  refine h.bind (h.run _) fun _ => ?_
  refine h.bind (h.run _) fun _ => ?_
  exact h.bind (h.run _) fun _ => h.pure dir

theorem publishSite (h : Related R sh sh') (c : Settings) :
    R (sh.publishSite c) (sh'.publishSite c) := by
  have href : sh'.context.ref? = sh.context.ref? := by rw [Context.ref?, Context.ref?, h.refName]
  unfold Shell.publishSite
  rw [href]
  cases sh.context.ref? with
  | none => exact h.bind h.skipped fun _ => h.pure _
  | some ref =>
      refine h.bind (h.use _) fun words => h.bind (h.run words) fun _ => ?_
      exact h.bind (h.use _) fun place => h.pure _

theorem perform (h : Related R sh sh') (c : Settings) (stage : Stage) :
    R (sh.perform c stage) (sh'.perform c stage) := by
  cases stage with
  | printVersions => exact h.bind (h.run _) fun _ => h.pure _
  | installToolchain => exact h.bind (h.run _) fun _ => h.pure _
  | patchCiDependency => exact h.patchCiDependency c
  | buildSite => exact h.buildSite c
  | publishSite => exact h.publishSite c

/-- Some stages of related shells are related. -/
theorem performAll (h : Related R sh sh') (c : Settings) (stages : List Stage) :
    R (sh.performAll c stages) (sh'.performAll c stages) :=
  h.mapM (h.perform c) stages

/-- The pipelines of related shells are related if the events of their records are. -/
theorem runBook (h : Related R sh sh')
    (hdone : ∀ record : StageRecord, R (log record.event) (log record.event)) (c : Settings) :
    R (sh.runBook c) (sh'.runBook c) :=
  h.mapM (fun stage => h.bind (h.perform c stage) fun record =>
    h.bind (hdone record) fun _ => h.pure record) Stage.all

end Related
end Shell
end Bindery
