import FlowSurvey.Command.Run
import FlowSurvey.Main
import FlowSurvey.Proofs.CatalogOffers
import FlowSurvey.Proofs.ConstantReadings
import FlowSurvey.Proofs.DeployedFlows
import FlowSurvey.Proofs.DeploymentNames
import FlowSurvey.Proofs.DeploymentsCommand
import FlowSurvey.Proofs.Docstrings
import FlowSurvey.Proofs.EligibleFiles
import FlowSurvey.Proofs.FileContributions
import FlowSurvey.Proofs.FileLocations
import FlowSurvey.Proofs.FirstOffences
import FlowSurvey.Proofs.GroupSelection
import FlowSurvey.Proofs.ImportPaths
import FlowSurvey.Proofs.IntegerSpellings
import FlowSurvey.Proofs.JoinedLines
import FlowSurvey.Proofs.LineEndings
import FlowSurvey.Proofs.LinkedWalks
import FlowSurvey.Proofs.OutcomeMerges
import FlowSurvey.Proofs.RecordDocuments
import FlowSurvey.Proofs.RecordSchema
import FlowSurvey.Proofs.Refetch
import FlowSurvey.Proofs.RespacedReadings
import FlowSurvey.Proofs.ScannedFlows
import FlowSurvey.Proofs.SurveyFaults
import FlowSurvey.Proofs.SurveyShards
import FlowSurvey.Record.Document
import FlowSurvey.Report
import FlowSurvey.Selection
import FlowSurvey.Survey
