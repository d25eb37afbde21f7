import Bsflite.Tlv
import Bsflite.Outgoing
import Bsflite.Safety
import Bsflite.Message
import Bsflite.Disconnect
import Bsflite.InStep
import Bsflite.Presence
import Bsflite.Secrecy
import Bsflite.Field
import Bsflite.Typing
import Bsflite.Registry
import Bsflite.Loading
import Bsflite.Idle
import Bsflite.Waiting
import Bsflite.Logged
import Bsflite.MainLoop
import Bsflite.Location
import Bsflite.Login
import Bsflite.Alternate
import Bsflite.RosterMap
import Bsflite.Netspeak
import Bsflite.WordWrap
import Bsflite.Paste
import Bsflite.UserInfo
import Bsflite.AwayState
import Bsflite.InfoRequests
import Bsflite.OtrState
import Bsflite.Prettyprint
import Bsflite.Commute
import Bsflite.Display
import Bsflite.Config
import Bsflite.SendReport
import Bsflite.Proxy
import Bsflite.LineEditor
import Bsflite.Writer
import Bsflite.TlvCursor
import Bsflite.RateLimits
import Bsflite.Md5
import Bsflite.Turns
import Bsflite.Whole
import Bsflite.Conversation
import Bsflite.Running
import Bsflite.LogFile
