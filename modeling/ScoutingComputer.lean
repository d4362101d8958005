import ScoutingComputer.Foundation.Run
import ScoutingComputer.Foundation.Dialogue
import ScoutingComputer.Socket.Calls
import ScoutingComputer.Socket.Transfer
import ScoutingComputer.Socket.Transfer
import ScoutingComputer.Upload
import ScoutingComputer.Upload.Rewrite
import ScoutingComputer.Upload.Loss
import ScoutingComputer.Upload.Payload
import ScoutingComputer.Upload.Pending
import ScoutingComputer.Foundation.Separated
import ScoutingComputer.JsonParser
import ScoutingComputer.MurmurHash2Neutral
import ScoutingComputer.Bluetooth.BluetoothConductor
import ScoutingComputer.Bluetooth.ReceiveMatch
import ScoutingComputer.Bluetooth.Unreceived
import ScoutingComputer.Bluetooth.BtTabObj
import ScoutingComputer.Bluetooth.Bluetooth
import ScoutingComputer.Bluetooth.Operations
import ScoutingComputer.Bluetooth.Identity
import ScoutingComputer.Socket.Failure
import ScoutingComputer.Bluetooth.FailedRead
import ScoutingComputer.Sql.Lexer
import ScoutingComputer.Sql.Placeholder
import ScoutingComputer.Database.Query
import ScoutingComputer.Database.Statements
import ScoutingComputer.Bluetooth.Connection
import ScoutingComputer.Socket.Follows
import ScoutingComputer.Upload.Rebatch
import ScoutingComputer.Upload.Numbered
import ScoutingComputer.EventFiles
import ScoutingComputer.EventFiles.OneEvent
import ScoutingComputer.EventFiles.LocalDb
import ScoutingComputer.Database.TeamTable
import ScoutingComputer.Bluetooth.Closed
import ScoutingComputer.Bluetooth.Polled
import ScoutingComputer.Bluetooth.Decision
import ScoutingComputer.Bluetooth.Policy
import ScoutingComputer.Bluetooth.Payloads
import ScoutingComputer.Bluetooth.Delivered
import ScoutingComputer.Bluetooth.InStep
import ScoutingComputer.Bluetooth.Framing
import ScoutingComputer.Foundation.Mixing
import ScoutingComputer.MurmurHash2Neutral.Change
import ScoutingComputer.Foundation.Trace
import ScoutingComputer.Socket.Schedule
import ScoutingComputer.Socket.Exact
import ScoutingComputer.Bluetooth.MatchList
import ScoutingComputer.Database.Quoted
import ScoutingComputer.Bluetooth.Drained
import ScoutingComputer.Bluetooth.Granted
import ScoutingComputer.Bluetooth.Served
import ScoutingComputer.DatabaseScene
import ScoutingComputer.DatabaseScene.Failing
import ScoutingComputer.Bluetooth.NameList
import ScoutingComputer.Bluetooth.Frames
import ScoutingComputer.Bluetooth.LiveList
import ScoutingComputer.Bluetooth.Removal
import ScoutingComputer.Foundation.EditBuffer
import ScoutingComputer.GuiHandler.TextBox
import ScoutingComputer.GuiHandler.DrawableList
import ScoutingComputer.GuiHandler.Empty
import ScoutingComputer.Database.Escapes
import ScoutingComputer.Socket.Raw
import ScoutingComputer.Socket.Raw.Send
import ScoutingComputer.Socket.Raw.Receive
import ScoutingComputer.Foundation.BigEndian
import ScoutingComputer.Foundation.ReedSolomon
import ScoutingComputer.Qrcodegen.BitBuffer
import ScoutingComputer.Qrcodegen.Field
import ScoutingComputer.Bluetooth.Address
import ScoutingComputer.Bluetooth.Pairing
import ScoutingComputer.Scenes
import ScoutingComputer.Bluetooth.Resend
import ScoutingComputer.Delivery
import ScoutingComputer.GuiHandler.SizeScaling
import ScoutingComputer.GuiHandler.ToastHandler
