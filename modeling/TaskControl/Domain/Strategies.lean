import TaskControl.Common.Errors
import TaskControl.Foundation.LinePattern

/-!
# Deployment strategies

Where a managed cron artefact lives, what shape it takes, and which
combinations of the two a specification may state.  A `DeploymentSpecification`
carries what its constructor checks, so an undeployable one cannot be built.
-/

set_option autoImplicit false

namespace TaskControl

open PythonText LinePattern

inductive DeploymentTarget where
  | userCrontab
  | systemCrontab
  | cronD
  | runParts
  deriving DecidableEq, Repr

def DeploymentTarget.wire : DeploymentTarget → String
  | .userCrontab => "user_crontab"
  | .systemCrontab => "system_crontab"
  | .cronD => "cron_d"
  | .runParts => "run_parts"

/-- Whether an artefact written here can name the user the work runs as. -/
def DeploymentTarget.expressesExecutionUser : DeploymentTarget → Bool
  | .systemCrontab | .cronD => true
  | .userCrontab | .runParts => false

inductive DeploymentStrategy where
  | runPartsDirectory
  | crontabBlockPerTask
  | crontabSingleBlock
  | cronDFile
  deriving DecidableEq, Repr

def DeploymentStrategy.wire : DeploymentStrategy → String
  | .runPartsDirectory => "run_parts_directory"
  | .crontabBlockPerTask => "crontab_block_per_task"
  | .crontabSingleBlock => "crontab_single_block"
  | .cronDFile => "cron_d_file"

def DeploymentStrategy.permittedTargets : DeploymentStrategy → List DeploymentTarget
  | .runPartsDirectory => [.runParts]
  | .cronDFile => [.cronD]
  | .crontabBlockPerTask | .crontabSingleBlock => [.userCrontab, .systemCrontab]

def DeploymentStrategy.defaultTarget : DeploymentStrategy → DeploymentTarget
  | .runPartsDirectory => .runParts
  | .cronDFile => .cronD
  | .crontabBlockPerTask | .crontabSingleBlock => .userCrontab

def DeploymentStrategy.writesAFilePerTask : DeploymentStrategy → Bool
  | .runPartsDirectory | .cronDFile => true
  | .crontabBlockPerTask | .crontabSingleBlock => false

/-- Whether the artefact states when the work runs. -/
def DeploymentStrategy.carriesItsOwnSchedule (strategy : DeploymentStrategy) : Bool :=
  strategy != .runPartsDirectory

inductive PeriodicClassification where
  | hourly
  | daily
  | weekly
  | monthly
  deriving DecidableEq, Repr

def PeriodicClassification.wire : PeriodicClassification → String
  | .hourly => "hourly"
  | .daily => "daily"
  | .weekly => "weekly"
  | .monthly => "monthly"

def maxExecutionUserLength : Nat := 32

/-- Of the alphabet check on a user name, what rendering depends on is kept: the
name is one word. -/
structure DeploymentSpecification where
  strategy : DeploymentStrategy
  target : DeploymentTarget
  classification : Option PeriodicClassification
  executionUser : Option Text
  permitted : target ∈ strategy.permittedTargets
  classified : strategy = .runPartsDirectory → classification ≠ none
  named : ∀ user ∈ executionUser, Token user ∧ user.length ≤ maxExecutionUserLength
  expressed : executionUser ≠ none → target.expressesExecutionUser = true

/-- The default specification: a region of its own in the invoking user's crontab. -/
def DeploymentSpecification.default : DeploymentSpecification where
  strategy := .crontabBlockPerTask
  target := .userCrontab
  classification := none
  executionUser := none
  permitted := by decide
  classified := by decide
  named := by simp
  expressed := by simp

/-- An entry of the single block in the invoking user's crontab. -/
def DeploymentSpecification.singleBlock : DeploymentSpecification where
  strategy := .crontabSingleBlock
  target := .userCrontab
  classification := none
  executionUser := none
  permitted := by decide
  classified := by decide
  named := by simp
  expressed := by simp

end TaskControl
