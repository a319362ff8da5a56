import PetsServer.Muduo.Buffer
import PetsServer.Foundations.Run
import PetsServer.Foundations.Loop
import PetsServer.Foundations.Framing
import PetsServer.Codec.OnMessage
import PetsServer.Codec.Frames
import PetsServer.Codec.Stream
import PetsServer.Dispatch.Dispatcher
import PetsServer.Dispatch.GameThread
import PetsServer.Object.PetsManager
import PetsServer.Server.CallBacks
import PetsServer.Foundations.Ownership
import PetsServer.Object.Manager
import PetsServer.Object.ManagerOwnership
import PetsServer.Server.Server
import PetsServer.Server.Attribution
import PetsServer.Server.Connecting
import PetsServer.Sql.Loop
import PetsServer.Server.Mirror
import PetsServer.Server.PetPointers
import PetsServer.NetMsg.Requests
import PetsServer.Server.RequestKinds
import PetsServer.Sql.Lock
import PetsServer.Foundations.Program
import PetsServer.Foundations.Text
import PetsServer.Sql.Result
import PetsServer.Sql.Signature
import PetsServer.Sql.Procedure
import PetsServer.Sql.Filling
import PetsServer.Sql.Statements
import PetsServer.Sql.Plan
import PetsServer.Sql.Stages
import PetsServer.Sql.Outcome
import PetsServer.Sql.Sent
import PetsServer.Sql.Session
import PetsServer.Sql.InSync
import PetsServer.Sql.Independence
import PetsServer.Foundations.Joining
import PetsServer.Foundations.Quoted
import PetsServer.Sql.CallText
import PetsServer.Sql.SetText
import PetsServer.Sql.Generated
import PetsServer.Sql.Declarations
import PetsServer.Sql.Accepted
import PetsServer.Sql.Binding
import PetsServer.Foundations.Words
import PetsServer.Sql.Grammar
import PetsServer.Foundations.Positions
import PetsServer.Sql.OutputOrder
import PetsServer.Sql.Nulls
import PetsServer.Sql.Overrun
import PetsServer.Sql.Arguments
import PetsServer.Sql.CallBack
import PetsServer.Sql.Verdict
import PetsServer.Sql.Inout
import PetsServer.Foundations.Appending
import PetsServer.Sql.Written
import PetsServer.Sql.ReadBack
import PetsServer.Object.Removal
import PetsServer.Foundations.ForLoop
import PetsServer.Object.Traversal
import PetsServer.Sql.StmtResult
import PetsServer.Object.Login
import PetsServer.Foundations.Splitting
import PetsServer.Object.Parse
import PetsServer.Codec.Backlog
import PetsServer.Sql.Releases
import PetsServer.Sql.ErrMsg
import PetsServer.Server.Delivery
import PetsServer.Dispatch.Progress
import PetsServer.Sql.Progress
import PetsServer.Codec.Memory
import PetsServer.Foundations.RemoteCall
import PetsServer.Sql.Database
import PetsServer.Sql.Receiving
import PetsServer.Sql.RemoteCall
import PetsServer.Sql.Backend
import PetsServer.Foundations.Client
import PetsServer.Sql.Prepared
import PetsServer.Sql.StmtProtocol
import PetsServer.Sql.StmtProtocol
