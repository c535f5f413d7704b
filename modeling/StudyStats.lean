import StudyStats.Alignment
import StudyStats.Dashboard
import StudyStats.FinalVerdict
import StudyStats.GoalSync
import StudyStats.GpaRange
import StudyStats.Improvement
import StudyStats.Instances
import StudyStats.LostSaves
import StudyStats.Merging
import StudyStats.OneAccount
import StudyStats.OwnRecords
import StudyStats.ProfileForm
import StudyStats.QuickResult
import StudyStats.Relogin
import StudyStats.Reopen
import StudyStats.Replay
import StudyStats.WhatIf
import StudyStats.Handlers
import StudyStats.Passwords
import StudyStats.Replicas
import StudyStats.HiveAdapters
import StudyStats.PagesRefine
import StudyStats.OwnGoals
