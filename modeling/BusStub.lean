import BusStub.Disk.Store
import BusStub.Main
import BusStub.Proofs.Agreement
import BusStub.Proofs.NestedNames
import BusStub.Proofs.SignatureLanguage
import BusStub.Proofs.TemporaryNames
import BusStub.Proofs.Scopes
import BusStub.Proofs.LocalNames
import BusStub.Proofs.FunctionScopes
import BusStub.Proofs.Overloads
import BusStub.Proofs.ClientMembers
import BusStub.Proofs.ClassMembers
import BusStub.Proofs.Acceptance
import BusStub.Proofs.LoaderHistory
import BusStub.Proofs.LoadOrder
import BusStub.Proofs.FileTree
import BusStub.Proofs.DeveloperFiles
import BusStub.Proofs.Counterparts
import BusStub.Proofs.AllOrNothing
import BusStub.Proofs.PropertyAccess
import BusStub.Proofs.SignatureErrors
import BusStub.Proofs.Discovery
import BusStub.Proofs.Concatenation
import BusStub.Proofs.WellScoped
import BusStub.Proofs.MergedMembers
import BusStub.Proofs.BufferLifetimes
import BusStub.Proofs.WrittenMembers
import BusStub.Proofs.Flattening
import BusStub.Proofs.ParentPath
import BusStub.Proofs.IgnoredContent
import BusStub.Proofs.RepeatedInterfaces
import BusStub.Proofs.JsonRevisions
import BusStub.Proofs.ScannedBytes
import BusStub.Proofs.ValidPaths
import BusStub.Proofs.CommentLines
import BusStub.Proofs.GeneratedCalls
import BusStub.Proofs.BalancedFiles
import BusStub.Proofs.WellKnownNames
import BusStub.Proofs.PrintedItems
