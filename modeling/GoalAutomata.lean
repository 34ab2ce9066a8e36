import GoalAutomata.Automaton.Listed
import GoalAutomata.Description.Space
import GoalAutomata.Description.Tuning
import GoalAutomata.Environment.Script
import GoalAutomata.Gate.Engagement
import GoalAutomata.Main
import GoalAutomata.Proofs.Description
import GoalAutomata.Proofs.Dfa.Completion
import GoalAutomata.Proofs.Dfa.Determinism
import GoalAutomata.Proofs.Dfa.Listing
import GoalAutomata.Proofs.Dfa.Unmentioned
import GoalAutomata.Proofs.Dfa.Verdicts
import GoalAutomata.Proofs.Exploring.Bonuses
import GoalAutomata.Proofs.Exploring.Convergence
import GoalAutomata.Proofs.Exploring.Returns
import GoalAutomata.Proofs.Exploring.Snapshot
import GoalAutomata.Proofs.Exploring.Table
import GoalAutomata.Proofs.Failures
import GoalAutomata.Proofs.Gate.Stateless
import GoalAutomata.Proofs.Guard.Reading
import GoalAutomata.Proofs.Guard.RoundTrip
import GoalAutomata.Proofs.KnownGraph.Classes
import GoalAutomata.Proofs.KnownGraph.Listing
import GoalAutomata.Proofs.Monitored.Dimensions
import GoalAutomata.Proofs.Monitored.Failures
import GoalAutomata.Proofs.Monitored.Layers
import GoalAutomata.Proofs.Monitored.Restart
import GoalAutomata.Proofs.Monitored.Returns
import GoalAutomata.Proofs.Potential
import GoalAutomata.Proofs.QTable.Bounds
import GoalAutomata.Proofs.QTable.Frame
import GoalAutomata.Proofs.QTable.Greedy
import GoalAutomata.Proofs.QTable.Training
import GoalAutomata.Proofs.Refinement
import GoalAutomata.Proofs.Space
import GoalAutomata.Proofs.Visiting
