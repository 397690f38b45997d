/-
A cog's scheduler as tools see it at one point in time: the active task, the
suspended ones and among them the ready ones, those that have never started,
and the metrics. All lists are in order of submission. Of a cog that is gone
there is nothing to see.
-/
import ObjectGroups.Machine

namespace ObjectGroups

structure Snapshot where
  cog : CogId
  name : String
  active : Option TaskView := none
  ready : List TaskView := []
  suspended : List TaskView := []
  schedulable : List TaskView := []
  metrics : Metrics := {}
deriving DecidableEq, Repr

namespace Scheduler

variable {S A V : Type}

def activeView (s : Scheduler S A V) : Option TaskView := s.activeTask.bind s.viewOf

def ready (s : Scheduler S A V) : List TaskView :=
  s.viewsWhere fun v => v.state = .suspended && v.ready

def suspended (s : Scheduler S A V) : List TaskView := s.viewsWhere fun v => v.state = .suspended

def schedulable (s : Scheduler S A V) : List TaskView := s.viewsWhere fun v => v.state = .queued

end Scheduler

variable {S A V : Type}

def Cog.snapshot (c : CogId) (g : Cog S A V) : Snapshot where
  cog := c
  name := g.name
  active := g.scheduler.activeView
  ready := g.scheduler.ready
  suspended := g.scheduler.suspended
  schedulable := g.scheduler.schedulable
  metrics := g.scheduler.metrics

def Machine.snapshot (m : Machine S A V) (c : CogId) : Option Snapshot :=
  (m.cogs.get? c).map fun g =>
    if m.cogExists c then g.snapshot c else { cog := c, name := g.name }

end ObjectGroups
